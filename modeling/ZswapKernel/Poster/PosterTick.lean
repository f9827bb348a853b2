import ZswapKernel.Lib.Program
import ZswapKernel.Poster.PosterJournal

/-!
# A tick of the offer poster

`deploy/scripts/lib/poster-tick.ts`: refresh the open offers against the kernel, then offer a coin
again that came back, else adopt a coin of the wallet and offer it.

The kernel, the wallet and the builder answer as the moves of the tick say. Before it answers, a
move closes offers of the kernel; a move without an answer is a crash, after which the next tick
starts from the journal's file. A mutation of the journal is in memory before it is written, and
stays there when the write throws. What the model adds to the poster's own state is the kernel's
offers, the statuses that polls of a new offer read, and for every post, the other offers the kernel
held live on the coin.

Left out: log lines, times and sleeps, the arithmetic of the quote, and the coins the wallet takes
back on `revert`, since it may answer any coins at any time.
-/

namespace ZswapKernel

open Program

/-! ## The kernel -/

inductive KernelOfferStatus
  | live
  | consumed
  | cancelled
  | expired
  deriving DecidableEq, Repr

def KernelOfferStatus.text : KernelOfferStatus → String
  | .live => "live"
  | .consumed => "consumed"
  | .cancelled => "cancelled"
  | .expired => "expired"

/-- An offer the kernel accepted, under the coin it spends. -/
structure KernelOffer where
  offerId : String
  coin : String
  status : KernelOfferStatus
  deriving DecidableEq, Repr

abbrev Kernel := List KernelOffer

namespace Kernel

/-- How offers end. An offer that ended stays as it is. -/
def close (closes : List (String × KernelOfferStatus)) (kernel : Kernel) : Kernel :=
  kernel.map fun offer =>
    if offer.status = .live then
      { offer with status := (closes.lookup offer.offerId).getD .live }
    else offer

/-- The kernel holds an offer of one content address once, also when it is over. -/
def accept (offerId coin : String) (kernel : Kernel) : Kernel :=
  if kernel.any (·.offerId = offerId) then kernel else ⟨offerId, coin, .live⟩ :: kernel

/-- The status route, of an offer the kernel still knows. -/
def statusText (offerId : String) (kernel : Kernel) : String :=
  match kernel.find? (·.offerId = offerId) with
  | some offer => offer.status.text
  | none => "not_found"

/-- The live offers on a coin. -/
def liveOn (coin : String) (kernel : Kernel) : List String :=
  (kernel.filter fun offer => offer.coin = coin ∧ offer.status = .live).map (·.offerId)

end Kernel

/-! ## The poster and its surroundings -/

/-- A post, with the other offers that were live on its coin. -/
structure PosterPost where
  offerId : String
  coin : String
  others : List String
  deriving DecidableEq, Repr

structure PosterWorld where
  /-- The journal in memory. -/
  journal : PosterJournal := {}
  /-- What the file of the journal parses to. -/
  file : PosterJournal := {}
  /-- Whether the next writes of the file succeed. The writes after them do. -/
  writes : List Bool := []
  kernel : Kernel := []
  posts : List PosterPost := []
  /-- What the polls of new offers read, under the offers' ids. -/
  polled : List (String × String) := []
  deriving DecidableEq, Repr

/-- Why a tick stops early: the process is gone, or an error nothing catches. -/
inductive PosterStop
  | crashed
  | writeFailed
  | threw (error : JournalError)
  deriving DecidableEq, Repr

abbrev Poster (α : Type) := Program PosterWorld PosterStop α

/-- What the surroundings do at a call: offers end, then the answer comes, or the process dies. -/
structure Move (α : Type) where
  closes : List (String × KernelOfferStatus) := []
  answer : Option α

/-- A call to the surroundings. -/
def answer {α : Type} (move : Move α) : Poster α := do
  modify fun world => { world with kernel := world.kernel.close move.closes }
  match move.answer with
  | some value => return value
  | none => throw .crashed

/-- A call of a list of moves. Where the list ends, the process does. -/
def answerNext {α : Type} : List (Move α) → Poster (α × List (Move α))
  | [] => throw .crashed
  | move :: rest => do
    let value ← answer move
    return (value, rest)

/-- A journal call: it refuses, or changes the journal and writes it. -/
def journaled (f : PosterJournal → Except JournalError PosterJournal) : Poster Unit := do
  let world ← get
  match f world.journal with
  | .error error => throw (.threw error)
  | .ok journal =>
    match world.writes with
    | false :: writes => do
      -- nothing undoes the change when the write throws
      set { world with journal, writes }
      throw .writeFailed
    | writes => set { world with journal, file := journal, writes := writes.tail }

structure SpendableCoin where
  nonce : String
  type : String
  value : Nat
  nullifier : String
  deriving DecidableEq, Repr

/-- `TickConfig`. -/
structure TickConfig where
  giveColour : String
  giveAmount : Nat
  giveRange : Option (Nat × Nat) := none
  wantColour : String
  offerTtlMinutes : Nat
  maxReoffersPerTick : Nat
  postRetries : Nat
  liveTries : Nat

/-! ## Reconciliation -/

/-- The answer of a status route: the transport fails, an archived row is pruned, a value outside
the vocabulary, or the status the kernel has. -/
inductive StatusAnswer
  | unreachable (message : String)
  | notFound
  | other (raw : String) (unrecognised : mapKernelStatus raw = .unknown)
  | current

/-- The text of an answer. -/
def StatusAnswer.read (offerId : String) (kernel : Kernel) : StatusAnswer → Except String String
  | unreachable message => .error message
  | notFound => .ok "not_found"
  | other raw _ => .ok raw
  | current => .ok (kernel.statusText offerId)

/-- A status read of `reconcile`. The process may also die between the two writes that close a
coin. -/
structure StatusMove extends Move StatusAnswer where
  diesBeforeSpent : Bool := false

/-- The round of `reconcile` for one offer. -/
def reconcileOffer (nonce : String) (offer : JournalOffer) (move : StatusMove) : Poster Unit := do
  let reply ← answer move.toMove
  let world ← get
  match reply.read offer.offerId world.kernel with
  | .error _ => return
  | .ok raw =>
    let status := mapKernelStatus raw
    if status = offer.status then return
    else
      journaled (·.setOfferStatus nonce offer.offerId status)
      if status = .consumed then
        if move.diesBeforeSpent then throw .crashed
        else journaled (·.markSpent nonce)
      else return

/-- The rounds of `reconcile`. -/
def reconcileOffers : List (String × JournalOffer) → List StatusMove → Poster Unit
  | [], _ => return
  | _ :: _, [] => throw .crashed
  | (nonce, offer) :: rest, move :: moves => do
    reconcileOffer nonce offer move
    reconcileOffers rest moves

/-- `reconcile`: the coins to offer again. `none` for a wallet that cannot be read. -/
def reconcile (statuses : List StatusMove) (nonces : Move (Option (List String))) :
    Poster (List (String × JournalCoin)) := do
  let world ← get
  reconcileOffers world.journal.nonTerminalOffers statuses
  let available ← answer nonces
  let world ← get
  return world.journal.candidates (available.getD [])

/-! ## Offering one coin -/

inductive QuoteAnswer
  | sized (wantAmount : Nat) (sponsored : Bool)
  | notSponsored (message : String)
  | failed (message : String)
  deriving DecidableEq, Repr

structure BuiltOffer where
  nullifiers : List String
  fallibleInputCount : Nat
  offerId : String
  blobSha256 : String
  deriving DecidableEq, Repr

/-- A `POST /v1/offers`: the answer and the text of its error, or a transport failure. -/
inductive PostAnswer
  | answered (status : Nat) (errorText : String)
  | unreachable (message : String)
  deriving DecidableEq, Repr

/-- A post: whether the kernel takes the offer, whatever it answers. -/
structure PostMove extends Move PostAnswer where
  accepts : Bool

/-- `offerStatusByBlob`: the kernel's id of the blob, when it says one, and the status. -/
structure PollAnswer where
  offerId : Option String
  status : StatusAnswer

/-- The answers to one `offerCoin`. The read-back of the offer changes only the result: it agrees,
disagrees, or fails. -/
structure OfferMoves where
  quote : Move QuoteAnswer
  build : Move (Except String BuiltOffer)
  posts : List PostMove
  polls : List (Move PollAnswer)
  view : Move (Option (List String))

/-- `FAILURES`, and the kernel's refusals. -/
inductive TickFailure
  | insufficientInventory
  | wrongInputNullifier
  | notSponsored
  | unpriced
  | postTimeout
  | kernelUnreachable
  | buildFailed
  | quoteFailed
  | postRejected (code : String)
  deriving DecidableEq, Repr

inductive OfferCoinResult
  | ok (offerId : String) (wantAmount : Nat) (sponsored : Bool)
  | failed (failure : TickFailure)
  deriving DecidableEq, Repr

/-- The words of a text: the runs of `[A-Za-z0-9_]`. -/
def words (text : List Char) : List (List Char) :=
  text.splitBy fun a b => isWordChar a == isWordChar b
where
  isWordChar (c : Char) : Bool := c.isAlphanum || c == '_'

/-- `refusalCode`: the first word that matches `[A-Z][A-Z0-9_]{3,}`, else the status. -/
def refusalCode (status : Nat) (errorText : String) : String :=
  let isCode (word : List Char) : Bool := 4 ≤ word.length && (word.headD ' ').isUpper &&
    word.all fun c => c.isUpper || c.isDigit || c == '_'
  match (words errorText.toList).find? isCode with
  | some word => String.ofList word
  | none => toString status

/-- `text.includes(part)`. -/
def includes (text part : String) : Bool := text.toList.tails.any part.toList.isPrefixOf

/-- `isRetryablePostError`. -/
def isRetryablePostError (errorText : String) : Bool :=
  includes errorText "ROOT_UNKNOWN" || includes errorText "UTXO_NOT_LIVE"

/-- How the loop of posts ends. -/
inductive PostOutcome
  | accepted
  | refused (code : String)
  | unreachable
  | exhausted
  | crashed
  deriving DecidableEq, Repr

/-- The loop of posts of one blob: how it ends, and the posts it made. `attempts` are left. -/
def postAttempts : Nat → List PostMove → PostOutcome × List PostMove
  | 0, _ => (.exhausted, [])
  | _ + 1, [] => (.crashed, [])
  | attempts + 1, move :: moves =>
    match move.answer with
    | none => (.crashed, [move])
    | some (.unreachable _) =>
      if attempts = 0 then (.unreachable, [move])
      else
        let (outcome, made) := postAttempts attempts moves
        (outcome, move :: made)
    | some (.answered status errorText) =>
      if status = 200 ∨ status = 201 then (.accepted, [move])
      else if isRetryablePostError errorText then
        if attempts = 0 then (.exhausted, [move])
        else
          let (outcome, made) := postAttempts attempts moves
          (outcome, move :: made)
      else (.refused (refusalCode status errorText), [move])

/-- The effect of a post on the kernel. -/
def post (coin offerId : String) (move : PostMove) : Poster Unit :=
  modify fun world =>
    let kernel := world.kernel.close move.closes
    { world with
      posts := world.posts ++
        [⟨offerId, coin, (kernel.liveOn coin).filter (· ≠ offerId)⟩]
      kernel := if move.accepts then kernel.accept offerId coin else kernel }

/-- `recordOrUpdateOffer`. -/
def recordOrUpdateOffer (nonce : String) (input : RecordOfferInput) (journal : PosterJournal) :
    Except JournalError PosterJournal :=
  match journal.recordOffer nonce input with
  | .ok journal => .ok journal
  | .error error =>
    if error.code = .duplicateOffer then journal.setOfferStatus nonce input.offerId input.status
    else .error error

/-- The loop of polls: the kernel's book shows the offer, it ended, or the polls run out. -/
def pollLive (nonce : String) (offerId : String) : Nat → List (Move PollAnswer) → Poster Bool
  | 0, _ => do
    journaled (·.setOfferStatus nonce offerId .unknown)
    return false
  | tries + 1, moves => do
    let (poll, rest) ← answerNext moves
    let world ← get
    match poll.status.read (toLowerCase offerId) world.kernel with
    | .error _ => pollLive nonce offerId tries rest
    | .ok status =>
      if poll.offerId.any fun id => toLowerCase id ≠ toLowerCase offerId then do
        journaled (·.setOfferStatus nonce offerId .unknown)
        return false
      else do
        modify fun world => { world with polled := world.polled ++ [(toLowerCase offerId, status)] }
        if status = "live" then return true
        else if status = "consumed" ∨ status = "cancelled" ∨ status = "expired" then do
          journaled (·.setOfferStatus nonce offerId (mapKernelStatus status))
          return false
        else pollLive nonce offerId tries rest

/-- The end of `offerCoin`, once the kernel has accepted the offer. -/
def followOffer (cfg : TickConfig) (coin : SpendableCoin) (built : BuiltOffer) (wantAmount : Nat)
    (sponsored : Bool) (moves : OfferMoves) : Poster OfferCoinResult := do
  journaled (recordOrUpdateOffer coin.nonce ⟨built.offerId, built.blobSha256,
    cfg.offerTtlMinutes * 60, cfg.wantColour, wantAmount, .live⟩)
  let live ← pollLive coin.nonce built.offerId cfg.liveTries moves.polls
  if live then
    let view ← answer moves.view
    match view with
    | some inputNullifiers =>
      if inputNullifiers.map toLowerCase = [toLowerCase coin.nullifier] then
        return .ok built.offerId wantAmount sponsored
      else return .failed .wrongInputNullifier
    | none => return .ok built.offerId wantAmount sponsored
  else return .failed .postTimeout

/-- `offerCoin` from the posts on. `key` is the coin the kernel knows. -/
def postOffer (cfg : TickConfig) (key : String) (coin : SpendableCoin) (built : BuiltOffer)
    (wantAmount : Nat) (sponsored : Bool) (moves : OfferMoves) : Poster OfferCoinResult := do
  let (outcome, made) := postAttempts cfg.postRetries moves.posts
  made.forM (post key (toLowerCase built.offerId))
  match outcome with
  | .crashed => throw .crashed
  | .unreachable => return .failed .kernelUnreachable
  | .exhausted => return .failed .postTimeout
  | .refused code =>
    journaled (recordOrUpdateOffer coin.nonce ⟨built.offerId, built.blobSha256,
      cfg.offerTtlMinutes * 60, cfg.wantColour, wantAmount, .rejected⟩)
    return .failed (if code = "UNPRICED_TOKEN" then .unpriced else .postRejected code)
  | .accepted => followOffer cfg coin built wantAmount sponsored moves

/-- `offerCoin`. -/
def offerCoin (cfg : TickConfig) (key : String) (coin : SpendableCoin) (moves : OfferMoves) :
    Poster OfferCoinResult := do
  let quote ← answer moves.quote
  match quote with
  | .notSponsored _ => return .failed .notSponsored
  | .failed _ => return .failed .quoteFailed
  | .sized wantAmount sponsored =>
    let built ← answer moves.build
    match built with
    | .error _ => return .failed .buildFailed
    | .ok built =>
      if built.nullifiers.map toLowerCase = [toLowerCase coin.nullifier] ∧
          built.fallibleInputCount = 0 then
        postOffer cfg key coin built wantAmount sponsored moves
      else return .failed .wrongInputNullifier

/-! ## The tick -/

/-- A coin to offer again: the wallet finds it or not. -/
structure ReofferMoves where
  find : Move (Option SpendableCoin)
  offer : OfferMoves

structure TickMoves where
  statuses : List StatusMove
  nonces : Move (Option (List String))
  reoffers : List ReofferMoves
  /-- `availableCoins`, none when the wallet cannot be read. -/
  coins : Move (Option (List SpendableCoin))
  now : Int
  offer : OfferMoves

/-- `TickOutcome`: the mode, and whether it went well. -/
inductive TickOutcome
  | degraded (ok : Bool) (failure : TickFailure)
  | reoffer (ok : Bool) (nonce : String) (failure : Option TickFailure)
  | inventory (nonce : String) (result : OfferCoinResult)
  deriving DecidableEq, Repr

/-- `selectInventoryCoin`. -/
def selectInventoryCoin (cfg : TickConfig) (journal : PosterJournal) :
    List SpendableCoin → Except JournalError (Option SpendableCoin)
  | [] => .ok none
  | coin :: coins =>
    if toLowerCase coin.type ≠ toLowerCase cfg.giveColour then
      selectInventoryCoin cfg journal coins
    else do
      let journaled ← journal.getCoin coin.nonce
      if journaled.isSome then selectInventoryCoin cfg journal coins
      else
        let fits := match cfg.giveRange with
          | some (minBase, maxBase) => decide (minBase ≤ coin.value ∧ coin.value ≤ maxBase)
          | none => decide (coin.value = cfg.giveAmount)
        if fits then return some coin else selectInventoryCoin cfg journal coins

/-- The loop of re-offers: a failure ends the tick. `posted` is the coin of the last offer. -/
def reofferCoins (cfg : TickConfig) : List (String × JournalCoin) → List ReofferMoves →
    Option String → Poster (Option TickOutcome)
  | [], _, posted => return posted.map fun nonce => .reoffer true nonce none
  | _ :: _, [], _ => throw .crashed
  | (nonce, _) :: candidates, moves :: rest, posted => do
    let found ← answer moves.find
    match found with
    | none => reofferCoins cfg candidates rest posted
    | some coin =>
      let coin := { coin with nonce }
      let result ← offerCoin cfg nonce coin moves.offer
      match result with
      | .failed failure => return some (.reoffer false nonce (some failure))
      | .ok .. => reofferCoins cfg candidates rest (some nonce)

/-- The inventory branch of `runTick`. -/
def offerInventory (cfg : TickConfig) (moves : TickMoves) : Poster TickOutcome := do
  let available ← answer moves.coins
  match available with
  | none => return .degraded false .insufficientInventory
  | some coins =>
    let world ← get
    match selectInventoryCoin cfg world.journal coins with
    | .error error => throw (.threw error)
    | .ok none => return .degraded true .insufficientInventory
    | .ok (some coin) =>
      journaled (·.recordInventory coin.nonce coin.type coin.value coin.nullifier moves.now)
      let result ← offerCoin cfg (toLowerCase (trim coin.nonce)) coin moves.offer
      return .inventory coin.nonce result

/-- `runTick`. -/
def runTick (cfg : TickConfig) (moves : TickMoves) : Poster TickOutcome :=
  catching (do
    let candidates ← reconcile moves.statuses moves.nonces
    return some candidates)
    (fun
      | .crashed => throw .crashed
      | .writeFailed | .threw _ => return none)
  >>= fun
    | none => return .degraded false .kernelUnreachable
    | some candidates => do
      let budget := max 1 cfg.maxReoffersPerTick
      let reoffered ← reofferCoins cfg (candidates.take budget) moves.reoffers none
      match reoffered with
      | some outcome => return outcome
      | none => offerInventory cfg moves

/-- The world after a tick, also one that threw, or that crashed: the next process parses the
file. -/
def tick (cfg : TickConfig) (world : PosterWorld) (moves : TickMoves) : PosterWorld :=
  match (runTick cfg moves).outcome world with
  | (.error .crashed, world) => { world with journal := world.file }
  | (_, world) => world

end ZswapKernel
