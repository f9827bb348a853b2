import ZswapKernel.Solver.LadderSource

/-!
# The publication of a ladder

`packages/solver/src/relay-client.ts`: pushes, their withdrawal and the socket they go to.

Code between two `await`s is one function of the state. A promise that may still be pending is a
point at which a function is suspended (`PushPoint`, `WithdrawPoint`, `SendStage`), and whatever may
happen next is a `RelayEvent`. `handle` is total: an event that cannot happen changes nothing. What
the client reads outside itself comes with the event, and the clock never runs backwards.

Diagnostics, statistics and the job frames are left out: no push reads them. The observers do not
call the client back.
-/

namespace ZswapKernel

/-! ## The state -/

/-- A socket, by the order of its creation, and whether its `readyState` is open. -/
structure RelaySocket where
  generation : Nat
  isOpen : Bool
  deriving DecidableEq, Repr

/-- The frames of a publication. -/
inductive PublicationFrame
  | capabilities (message : SolverCapabilitiesMessage)
  | priceLevels (message : PriceLevelsMessage)
  deriving DecidableEq, Repr

/-- A derivation: its number, and what its cancellation check answered. -/
structure LadderOrigin where
  number : Nat
  answers : AbortCheck

/-- A frame handed to a socket. A withdrawal has no origin. -/
structure SentFrame where
  generation : Nat
  frame : PublicationFrame
  origin : Option LadderOrigin
  /-- The source at the moment of the send. -/
  input : LadderInput
  /-- Whether `withdraw()` had been called. -/
  retired : Bool

/-- What `runPush` holds across its `await`s. -/
structure PushRun where
  origin : LadderOrigin
  pushSocket : Nat
  push : LadderPush
  sourceSnapshot : Option LadderSourceSnapshot

/-- The `await` at which two sends in sequence stand; `handed` is whether `sendOn` let it through. -/
inductive SendStage
  | first (handed : Bool)
  | second (handed : Bool)
  | settled (sent : Bool)
  deriving DecidableEq, Repr

/-- An asynchronous function that sends an empty pair of frames. -/
structure EmptyPairTask where
  generation : Nat
  origin : Option LadderOrigin
  levelsFirst : Bool
  stage : SendStage

/-- The `await` at which the push in flight stands. -/
inductive PushPoint
  | capabilities (run : PushRun) (handed : Bool)
  | levels (run : PushRun) (handed : Bool)
  /-- In `withdrawFailedPush`; `requeue` is whether its caller then sets `queued`. -/
  | withdrawing (task : EmptyPairTask) (requeue : Bool)
  | returned

/-- The `await` at which `runWithdraw` stands. -/
inductive WithdrawPoint
  | idle
  | waiting
  | sending (task : EmptyPairTask)
  | done

structure RelayClient where
  /-- What the client would read now. -/
  input : LadderInput
  socket : Option RelaySocket := none
  generations : Nat := 0
  retired : Bool := false
  withdrawing : WithdrawPoint := .idle
  stopping : Bool := false
  inFlight : Option PushPoint := none
  queued : Bool := false
  /-- Tasks whose deadline passed before they did. -/
  orphans : List EmptyPairTask := []
  derivations : Nat := 0
  wire : List SentFrame := []

/-- What a push hears from outside: the answers of the cancellation check during the derivation,
the clock after it, and the answer of the check that follows. -/
structure PushReading where
  answers : AbortCheck
  clock : Int
  aborted : Bool

namespace RelayClient

variable (options : RelayLadderOptions)

/-! ## Sending -/

def isOpen (s : RelayClient) : Bool := s.socket.any (·.isOpen)

/-- `socket === expectedSocket`. -/
def onSocket (expectedSocket : Nat) (s : RelayClient) : Bool :=
  s.socket.any (·.generation = expectedSocket)

/-- `sendOn`: whether the frame was handed over. -/
def sendOn (expectedSocket : Nat) (origin : Option LadderOrigin) (frame : PublicationFrame)
    (s : RelayClient) : Bool × RelayClient :=
  if s.onSocket expectedSocket && s.isOpen then
    (true, { s with wire := s.wire ++ [⟨expectedSocket, frame, origin, s.input, s.retired⟩] })
  else (false, s)

def handleClosed (s : RelayClient) : RelayClient := { s with socket := none }

def closeSocketGeneration (expectedSocket : Nat) (s : RelayClient) : RelayClient :=
  if s.onSocket expectedSocket then s.handleClosed else s

/-- The two frames of an empty pair, in their order. -/
def emptyPair (levelsFirst : Bool) : PublicationFrame × PublicationFrame :=
  let capabilities := .capabilities (emptyCapabilities options.maxParallelSwaps)
  let priceLevels := .priceLevels ⟨[]⟩
  if levelsFirst then (priceLevels, capabilities) else (capabilities, priceLevels)

/-- Start sending an empty pair. -/
def startEmptyPair (expectedSocket : Nat) (origin : Option LadderOrigin) (levelsFirst : Bool)
    (s : RelayClient) : EmptyPairTask × RelayClient :=
  let (handed, s) := s.sendOn expectedSocket origin (emptyPair options levelsFirst).1
  (⟨expectedSocket, origin, levelsFirst, .first handed⟩, s)

/-- A send of the task has been answered. -/
def resumeEmptyPair (task : EmptyPairTask) (ok : Bool) (s : RelayClient) :
    EmptyPairTask × RelayClient :=
  match task.stage with
  | .first handed =>
    if ok && handed then
      let (handed, s) :=
        s.sendOn task.generation task.origin (emptyPair options task.levelsFirst).2
      ({ task with stage := .second handed }, s)
    else ({ task with stage := .settled false }, s)
  | .second handed => ({ task with stage := .settled (ok && handed) }, s)
  | .settled _ => (task, s)

/-! ## Pushing -/

/-- `runPush` has returned to its loop. -/
def returning (requeue : Bool) (s : RelayClient) : RelayClient :=
  { s with inFlight := some .returned, queued := s.queued || requeue }

def withdrawFailedPush (expectedSocket : Nat) (origin : LadderOrigin) (levelsFirst requeue : Bool)
    (s : RelayClient) : RelayClient :=
  if !s.onSocket expectedSocket || s.retired then s.returning requeue
  else
    let (task, s) := s.startEmptyPair options expectedSocket (some origin) levelsFirst
    { s with inFlight := some (.withdrawing task requeue) }

end RelayClient

/-- The snapshot `runPush` takes before it derives. -/
def sourceSnapshotOf (options : RelayLadderOptions) (input : LadderInput) :
    Option LadderSourceSnapshot :=
  match resolveLadderResourceLimits options.resourceLimits with
  | .ok limits =>
    if input.isCurrent && input.book.size ≤ limits.maxSourceOffers then
      (captureLadderSourceSnapshot options input limits.maxSourceOffers).toOption
    else none
  | .error _ => none

/-- Whether a revalidation finds the derivation stale. -/
def PushRun.stale (options : RelayLadderOptions) (run : PushRun) (input : LadderInput)
    (aborted : Bool) : Bool :=
  match run.push.withheld, run.sourceSnapshot with
  | none, some snapshot =>
    aborted ||
      (sourceSnapshotFailure options input snapshot run.push.derived.limits.maxSourceOffers).isSome
  | _, _ => false

namespace RelayClient

variable (options : RelayLadderOptions)

/-- The clock moves on; it never runs backwards. -/
def advance (clock : Int) (s : RelayClient) : RelayClient :=
  { s with input := { s.input with nowMs := max s.input.nowMs clock } }

/-- `runPush` up to its first `await`. -/
def runPush (reading : PushReading) (s : RelayClient) : RelayClient :=
  match s.socket with
  | none => s.returning false
  | some pushSocket =>
    if s.retired || !pushSocket.isOpen then s.returning false
    else
      let origin : LadderOrigin := ⟨s.derivations, reading.answers⟩
      let derived := deriveLadderPush options s.input reading.answers
      let sourceSnapshot := sourceSnapshotOf options s.input
      let s := { s.advance reading.clock with derivations := s.derivations + 1 }
      match derived with
      | .error _ => s.withdrawFailedPush options pushSocket.generation origin false false
      | .ok push =>
        let run : PushRun := ⟨origin, pushSocket.generation, push, sourceSnapshot⟩
        if run.stale options s.input reading.aborted then
          s.withdrawFailedPush options pushSocket.generation origin false true
        else
          let (handed, s) :=
            s.sendOn pushSocket.generation (some origin) (.capabilities push.capabilities)
          { s with inFlight := some (.capabilities run handed) }

/-- A failure on the wire. -/
def publicationFailed (run : PushRun) (s : RelayClient) : RelayClient :=
  (s.closeSocketGeneration run.pushSocket).returning false

/-- `runPush` after its capabilities. -/
def resumeCapabilities (run : PushRun) (ok aborted : Bool) (s : RelayClient) : RelayClient :=
  if !ok then s.publicationFailed run
  else if !s.onSocket run.pushSocket || s.retired then s.returning false
  else if run.stale options s.input aborted then
    s.withdrawFailedPush options run.pushSocket run.origin true true
  else
    let (handed, s) :=
      s.sendOn run.pushSocket (some run.origin) (.priceLevels run.push.priceLevels)
    { s with inFlight := some (.levels run handed) }

def requestPush (reading : PushReading) (s : RelayClient) : RelayClient :=
  match s.inFlight with
  | some _ => { s with queued := true }
  | none => s.runPush options reading

/-- The loop of `requestPush`, once `runPush` has returned. -/
def resumeLoop (reading : PushReading) (s : RelayClient) : RelayClient :=
  if !s.queued || s.retired || !s.isOpen then { s with inFlight := none, queued := false }
  else { s with queued := false }.runPush options reading

/-- The promise the push in flight awaits is settled; `ok` is whether it resolved. -/
def resumePush (ok : Bool) (reading : PushReading) (s : RelayClient) : RelayClient :=
  match s.inFlight with
  | none => s
  | some (.capabilities run handed) =>
    s.resumeCapabilities options run (ok && handed) reading.aborted
  | some (.levels run handed) =>
    if ok && handed then s.returning false else s.publicationFailed run
  | some (.withdrawing task requeue) =>
    match task.stage with
    | .settled true => s.returning requeue
    | .settled false => (s.closeSocketGeneration task.generation).returning requeue
    | _ => s
  | some .returned => s.resumeLoop options reading

/-- A send of `withdrawFailedPush` has been answered. -/
def resumePushTask (ok : Bool) (s : RelayClient) : RelayClient :=
  match s.inFlight with
  | some (.withdrawing task requeue) =>
    let (task, s) := s.resumeEmptyPair options task ok
    { s with inFlight := some (.withdrawing task requeue) }
  | _ => s

/-- `withdrawTimeoutMs` has passed in `withdrawFailedPush`. -/
def pushDeadline (s : RelayClient) : RelayClient :=
  match s.inFlight with
  | some (.withdrawing task requeue) =>
    let s := (s.closeSocketGeneration task.generation).returning requeue
    { s with orphans := task :: s.orphans }
  | _ => s

/-! ## Withdrawing and stopping -/

/-- `runWithdraw` once nothing is in flight, or its wait timed out. -/
def sendWithdrawal (s : RelayClient) : RelayClient :=
  match s.socket with
  | none => { s with withdrawing := .done }
  | some withdrawSocket =>
    if !withdrawSocket.isOpen then { s with withdrawing := .done }
    else
      let (task, s) := s.startEmptyPair options withdrawSocket.generation none true
      { s with withdrawing := .sending task }

def withdraw (s : RelayClient) : RelayClient :=
  match s.withdrawing with
  | .idle =>
    let s := { s with retired := true }
    if s.inFlight.isSome then { s with withdrawing := .waiting } else s.sendWithdrawal options
  | _ => s

/-- What `runWithdraw` awaits is settled, or its deadline has passed. -/
def resumeWithdraw (s : RelayClient) : RelayClient :=
  match s.withdrawing with
  | .waiting => s.sendWithdrawal options
  | .sending task => { s with withdrawing := .done, orphans := task :: s.orphans }
  | _ => s

/-- A send of `runWithdraw` has been answered. -/
def resumeWithdrawTask (ok : Bool) (s : RelayClient) : RelayClient :=
  match s.withdrawing with
  | .sending task =>
    let (task, s) := s.resumeEmptyPair options task ok
    { s with withdrawing := .sending task }
  | _ => s

/-- A send of a task nobody waits for has been answered. -/
def resumeOrphan (index : Nat) (ok : Bool) (s : RelayClient) : RelayClient :=
  match s.orphans[index]? with
  | some orphan =>
    let (task, s) := s.resumeEmptyPair options orphan ok
    { s with orphans := s.orphans.set index task }
  | none => s

def stop (s : RelayClient) : RelayClient :=
  { s.withdraw options with stopping := true }

/-- `stop` after its withdrawal. -/
def resumeStop (s : RelayClient) : RelayClient :=
  match s.stopping, s.withdrawing with
  | true, .done => s.handleClosed
  | _, _ => s

/-! ## The socket -/

def connect (created : Bool) (s : RelayClient) : RelayClient :=
  if s.retired || s.socket.isSome || !created then s
  else
    { s with socket := some ⟨s.generations, false⟩, generations := s.generations + 1 }

/-- The `readyState` of the socket changes. -/
def readyState (isOpen : Bool) (s : RelayClient) : RelayClient :=
  { s with socket := s.socket.map ({ · with isOpen }) }

/-- `onopen`. -/
def opened (reading : PushReading) (s : RelayClient) : RelayClient :=
  if s.socket.isSome then (s.readyState true).requestPush options reading else s

def tick (reading : PushReading) (s : RelayClient) : RelayClient :=
  if s.retired || !s.isOpen then s else s.requestPush options reading

end RelayClient

/-! ## Runs -/

/-- What can happen next. -/
inductive RelayEvent
  /-- The book, its currentness, the claims or the clock change. -/
  | source (input : LadderInput)
  | connect (created : Bool)
  | readyState (isOpen : Bool)
  | opened (reading : PushReading)
  /-- `onclose`, `onerror` or the connect timeout. -/
  | closed
  | tick (reading : PushReading)
  | push (reading : PushReading)
  | resumePush (ok : Bool) (reading : PushReading)
  | resumePushTask (ok : Bool)
  | pushDeadline
  | resumeOrphan (index : Nat) (ok : Bool)
  | withdraw
  | resumeWithdraw
  | resumeWithdrawTask (ok : Bool)
  | stop
  | resumeStop

namespace RelayClient

def handle (options : RelayLadderOptions) (s : RelayClient) : RelayEvent → RelayClient
  | .source input => { s with input := { input with nowMs := max s.input.nowMs input.nowMs } }
  | .connect created => s.connect created
  | .readyState isOpen => s.readyState isOpen
  | .opened reading => s.opened options reading
  | .closed => s.handleClosed
  | .tick reading => s.tick options reading
  | .push reading => s.requestPush options reading
  | .resumePush ok reading => s.resumePush options ok reading
  | .resumePushTask ok => s.resumePushTask options ok
  | .pushDeadline => s.pushDeadline
  | .resumeOrphan index ok => s.resumeOrphan options index ok
  | .withdraw => s.withdraw options
  | .resumeWithdraw => s.resumeWithdraw options
  | .resumeWithdrawTask ok => s.resumeWithdrawTask options ok
  | .stop => s.stop options
  | .resumeStop => s.resumeStop

end RelayClient

end ZswapKernel
