import ZswapKernel.Node.EventBus
import ZswapKernel.SolverCore.UpdatesClient

/-!
# The offer-updates stream

`packages/node/offer-updates-stream.ts`: one subscription of `GET /v1/offers/updates`. It listens
to the bus before it announces itself, numbers what it sends, and ends the socket when it cannot
send (`UpdatesSocket.run_unbroken`).

A `UpdatesLink` joins the subscription to its client: the frames arrive in order, as far as they
arrive. No event is skipped while the subscription goes on, and a client that still runs has
accepted everything that arrived (`offer_updates_no_gap`).

A `close` or `error` of the socket means that it is over. Left out: the handshake and the capacity,
which decide whether there is a subscription at all.
-/

namespace ZswapKernel

/-! ## The events on the wire -/

variable {Leg : Type}

def optionalField (name : String) (value : Option String) : List (String × Json) :=
  (value.map fun text => (name, Json.string text)).toList

/-- The fields of an event. A leg that `JSON.stringify` refuses is none. -/
def AppEvent.fields (leg : Leg → Option Json) (event : AppEvent Leg) :
    Option (List (String × Json)) :=
  match event with
  | offerIndexed offerId offerHash blockHeight gives wants => do
    let gives ← gives.mapM leg
    let wants ← wants.mapM leg
    return [("type", .string event.type), ("offerId", .number (.finite offerId)),
      ("offerHash", .string offerHash), ("blockHeight", .number (.finite blockHeight)),
      ("gives", .array gives), ("wants", .array wants)]
  | offerConsumed offerId offerHash nullifier unshieldedSpend =>
    let spend := unshieldedSpend.map fun ref => ("unshieldedSpend", Json.object
      [("owner", .string ref.owner), ("intentHash", .string ref.intentHash),
        ("outputNo", .number (.finite ref.outputNo))])
    some ([("type", .string event.type), ("offerId", .number (.finite offerId))] ++
      optionalField "offerHash" offerHash ++ optionalField "nullifier" nullifier ++ spend.toList)
  | offerExpired offerId offerHash =>
    some ([("type", .string event.type), ("offerId", .number (.finite offerId))] ++
      optionalField "offerHash" offerHash)
  | tokenMinted name color kind =>
    some ([("type", .string event.type), ("name", .string name), ("color", .string color)] ++
      optionalField "kind" kind)
  | offerRejected code reason offerHash blockHeight =>
    some ([("type", .string event.type)] ++ optionalField "code" code ++
      optionalField "reason" reason ++ optionalField "offerHash" offerHash ++
      [("blockHeight", .number (.finite blockHeight))])

/-- An event the bus releases, with the two times the listener reads. -/
structure Release (Leg : Type) where
  event : AppEvent Leg
  ts : Nat
  timestamp : Nat

/-- The frame of an event: its fields and the timestamp. -/
def updateFrame (leg : Leg → Option Json) (streamId : String) (seq : Nat)
    (release : Release Leg) : Option OfferUpdatesFrame :=
  (release.event.fields leg).map fun fields =>
    .update streamId seq release.ts
      (fields ++ [("timestamp", .number (.finite release.timestamp))])

/-! ## The subscription -/

/-- `MAX_OFFER_UPDATES_BUFFERED_BYTES`. -/
def maxOfferUpdatesBufferedBytes : Nat := 1024 * 1024

/-- What `socket.send` does: it throws, or it takes the text and then shows what it buffers. -/
inductive SendAnswer
  | threw
  | queued (bufferedAmount : Nat)
  deriving DecidableEq, Repr

/-- The state of `subscribe`, with what was handed to the socket and what the bus has released since
the listener was attached. -/
structure UpdatesSocket (Leg : Type) where
  streamId : String
  /-- `socket.readyState` is `WS_OPEN`. -/
  isOpen : Bool := true
  /-- The connection below was destroyed. -/
  destroyed : Bool := false
  closed : Bool := false
  /-- The anchor is being read. -/
  waiting : Bool := true
  listening : Bool := false
  pinging : Bool := false
  awaitingPong : Bool := false
  seq : Nat := offerUpdatesReadySeq
  sent : List OfferUpdatesFrame := []
  due : List (Release Leg) := []

/-- What happens to a subscription. -/
inductive UpdatesEvent (Leg : Type)
  | anchor (blockL2Height : Option String) (ts : Nat) (send : SendAnswer)
  | released (release : Release Leg) (send : SendAnswer)
  | message
  | pong
  | leavesOpen
  | gone
  | keepalive (pingThrows : Bool)
  | shutdown

namespace UpdatesSocket

/-- `cleanup`. -/
def cleanup (socket : UpdatesSocket Leg) : UpdatesSocket Leg :=
  if socket.closed then socket
  else { socket with closed := true, listening := false, pinging := false }

/-- `endSubscription`. -/
def endSubscription (socket : UpdatesSocket Leg) : UpdatesSocket Leg :=
  { socket.cleanup with destroyed := true }

/-- `send`, of a frame that may not serialise: whether it was sent. -/
def send (byteLength : Json → Nat) (frame : Option OfferUpdatesFrame) (answer : SendAnswer)
    (socket : UpdatesSocket Leg) : Bool × UpdatesSocket Leg :=
  if socket.closed || !socket.isOpen then (false, socket.cleanup)
  else
    match frame.filter fun frame => (encodeOfferUpdatesFrame frame).isSome with
    | none => (false, socket.endSubscription)
    | some frame =>
      if maxOfferUpdatesFrameBytes < byteLength frame.value then (false, socket.endSubscription)
      else
        match answer with
        | .threw => (false, socket.endSubscription)
        | .queued bufferedAmount =>
          let socket := { socket with sent := socket.sent ++ [frame] }
          if maxOfferUpdatesBufferedBytes < bufferedAmount then (false, socket.endSubscription)
          else (true, socket)

def step (leg : Leg → Option Json) (byteLength : Json → Nat) (socket : UpdatesSocket Leg) :
    UpdatesEvent Leg → UpdatesSocket Leg
  | .anchor blockL2Height ts answer =>
    if !socket.waiting then socket
    else
      let socket := { socket with waiting := false }
      if socket.closed || !socket.isOpen then socket.cleanup
      else
        let ready := OfferUpdatesFrame.ready socket.streamId ts blockL2Height
        let (sent, socket) := send byteLength (some ready) answer { socket with listening := true }
        if sent then { socket with pinging := true } else socket
  | .released release answer =>
    -- What comes before the listener is attached is none of this subscription's events.
    if socket.waiting then socket
    else
      let socket := { socket with due := socket.due ++ [release] }
      if socket.listening then
        let socket := { socket with seq := socket.seq + 1 }
        (send byteLength (updateFrame leg socket.streamId socket.seq release) answer socket).2
      else socket
  | .message => socket.endSubscription
  | .pong => { socket with awaitingPong := false }
  | .leavesOpen => { socket with isOpen := false }
  | .gone => { socket.cleanup with isOpen := false }
  | .keepalive pingThrows =>
    if !socket.pinging || socket.closed then socket
    else if socket.awaitingPong then socket.endSubscription
    else if pingThrows then { socket with awaitingPong := true }.endSubscription
    else { socket with awaitingPong := true }
  | .shutdown => { socket.cleanup with destroyed := true }

/-- The subscription after a list of events. -/
def run (leg : Leg → Option Json) (byteLength : Json → Nat) (streamId : String)
    (events : List (UpdatesEvent Leg)) : UpdatesSocket Leg :=
  events.foldl (step leg byteLength) { streamId }

/-- The socket is over, for the peer too. -/
def isOver (socket : UpdatesSocket Leg) : Bool := !socket.isOpen || socket.destroyed

end UpdatesSocket

/-! ## What is sent -/

variable {leg : Leg → Option Json} {byteLength : Json → Nat}

/-- The frames of a subscription that misses nothing, those that do not serialise being none. -/
def streamFrames (leg : Leg → Option Json) (streamId : String) (ts : Nat) (height : Option String)
    (due : List (Release Leg)) : List (Option OfferUpdatesFrame) :=
  some (.ready streamId ts height) ::
    (due.zipIdx 1).map fun (release, seq) => updateFrame leg streamId seq release

@[simp] theorem length_streamFrames (streamId : String) (ts : Nat) (height : Option String)
    (due : List (Release Leg)) :
    (streamFrames leg streamId ts height due).length = due.length + 1 := by
  simp [streamFrames]

theorem streamFrames_concat (streamId : String) (ts : Nat) (height : Option String)
    (due : List (Release Leg)) (release : Release Leg) :
    streamFrames leg streamId ts height (due ++ [release]) =
      streamFrames leg streamId ts height due ++
        [updateFrame leg streamId (due.length + 1) release] := by
  simp [streamFrames, List.zipIdx_append, Nat.add_comm]

/-- They are contiguous. -/
theorem contiguous_streamFrames {streamId : String} {ts : Nat} {height : Option String}
    {due : List (Release Leg)} {frames : List OfferUpdatesFrame}
    (h : frames.map some <+: streamFrames leg streamId ts height due) : Contiguous frames := by
  refine ⟨streamId, fun i frame hframe => ?_⟩
  have hi : i < (frames.map some).length := by
    rw [List.length_map]
    exact (List.getElem?_eq_some_iff.mp hframe).1
  have hmem : (streamFrames leg streamId ts height due)[i]? = some (some frame) := by
    obtain ⟨rest, hrest⟩ := h
    rw [← hrest, List.getElem?_append_left hi, List.getElem?_map, hframe]
    rfl
  unfold streamFrames at hmem
  cases i with
  | zero =>
    cases Option.some.inj (Option.some.inj hmem)
    exact ⟨rfl, rfl, fun _ => rfl, fun _ => rfl⟩
  | succ i =>
    rw [List.getElem?_cons_succ, List.getElem?_map, List.getElem?_zipIdx] at hmem
    obtain ⟨⟨release, seq⟩, hrelease, hupdate⟩ := Option.map_eq_some_iff.mp hmem
    obtain ⟨release', -, hpair⟩ := Option.map_eq_some_iff.mp hrelease
    obtain ⟨fields, -, rfl⟩ := Option.map_eq_some_iff.mp hupdate
    cases hpair
    exact ⟨rfl, Nat.add_comm 1 i, by simp [OfferUpdatesFrame.isReady]⟩

namespace UpdatesSocket

variable {socket : UpdatesSocket Leg}

/-- A subscription as it is ended: what it was to send is as before. -/
structure Ends (socket ended : UpdatesSocket Leg) : Prop where
  isOver : ended.isOver = true
  listening : ended.listening = false
  waiting : ended.waiting = socket.waiting
  due : ended.due = socket.due
  streamId : ended.streamId = socket.streamId

theorem cleanup_listening (h : socket.closed = true → socket.listening = false) :
    socket.cleanup.listening = false := by
  unfold cleanup
  split
  · exact h ‹_›
  · rfl

theorem ends_endSubscription (h : socket.closed = true → socket.listening = false) :
    Ends socket socket.endSubscription := by
  refine ⟨by simp [endSubscription, isOver], cleanup_listening h, ?_, ?_, ?_⟩ <;>
  · unfold endSubscription cleanup
    split <;> rfl

theorem sent_endSubscription (socket : UpdatesSocket Leg) :
    socket.endSubscription.sent = socket.sent := by
  unfold endSubscription cleanup
  split <;> rfl

/-- What `send` does on a subscription that is not closed: the frame goes out and the subscription
goes on, or the subscription ends. -/
theorem send_cases (byteLength : Json → Nat) (frame : Option OfferUpdatesFrame)
    (answer : SendAnswer) (hclosed : socket.closed = false) :
    (∃ f, frame = some f ∧
      send byteLength frame answer socket = (true, { socket with sent := socket.sent ++ [f] })) ∨
    ∃ ended, send byteLength frame answer socket = (false, ended) ∧ Ends socket ended ∧
      (ended.sent = socket.sent ∨ ∃ f, frame = some f ∧ ended.sent = socket.sent ++ [f]) := by
  have hlistening : socket.closed = true → socket.listening = false := by
    rw [hclosed]
    exact fun h => absurd h (by decide)
  have hend := ends_endSubscription hlistening
  unfold send
  by_cases hopen : (socket.closed || !socket.isOpen) = true
  · rw [if_pos hopen]
    rw [hclosed, Bool.false_or] at hopen
    refine Or.inr ⟨_, rfl, ⟨?_, cleanup_listening hlistening, ?_, ?_, ?_⟩, Or.inl ?_⟩ <;>
    · unfold cleanup
      split <;> simp [isOver, hopen]
  · rw [if_neg hopen]
    cases hfilter : frame.filter fun frame => (encodeOfferUpdatesFrame frame).isSome with
    | none => exact Or.inr ⟨_, rfl, hend, Or.inl (sent_endSubscription socket)⟩
    | some f =>
      have hframe : frame = some f := (Option.filter_eq_some_iff.mp hfilter).1
      dsimp only
      by_cases hlarge : maxOfferUpdatesFrameBytes < byteLength f.value
      · rw [if_pos hlarge]
        exact Or.inr ⟨_, rfl, hend, Or.inl (sent_endSubscription socket)⟩
      · rw [if_neg hlarge]
        cases answer with
        | threw => exact Or.inr ⟨_, rfl, hend, Or.inl (sent_endSubscription socket)⟩
        | queued bufferedAmount =>
          dsimp only
          by_cases hslow : maxOfferUpdatesBufferedBytes < bufferedAmount
          · rw [if_pos hslow]
            have hslowEnd : Ends { socket with sent := socket.sent ++ [f] }
                (endSubscription { socket with sent := socket.sent ++ [f] }) :=
              ends_endSubscription hlistening
            refine Or.inr ⟨_, rfl, { hslowEnd with }, Or.inr ⟨f, hframe, ?_⟩⟩
            exact sent_endSubscription _
          · rw [if_neg hslow]
            exact Or.inl ⟨f, hframe, rfl⟩

/-! ## The invariant -/

/-- Before the anchor is read, while every event was sent, and once the socket is over. -/
inductive Phase (leg : Leg → Option Json) (socket : UpdatesSocket Leg) : Prop
  | waiting (hwaiting : socket.waiting = true) (hlistening : socket.listening = false)
      (hsent : socket.sent = []) (hdue : socket.due = []) (hseq : socket.seq = 0)
      (hclosed : socket.closed = true → socket.isOver = true)
  | listening (ts : Nat) (height : Option String) (hwaiting : socket.waiting = false)
      (hlistening : socket.listening = true) (hclosed : socket.closed = false)
      (hseq : socket.seq = socket.due.length)
      (hsent : socket.sent.map some = streamFrames leg socket.streamId ts height socket.due)
  | ended (ts : Nat) (height : Option String) (hwaiting : socket.waiting = false)
      (hlistening : socket.listening = false) (hover : socket.isOver = true)
      (hsent : socket.sent.map some <+: streamFrames leg socket.streamId ts height socket.due)

/-- The end of a subscription in any phase. -/
theorem Phase.ends {ended : UpdatesSocket Leg} (h : Phase leg socket) (hends : Ends socket ended)
    (hsent : ended.sent = socket.sent) (hseq : ended.seq = socket.seq) : Phase leg ended := by
  cases h with
  | waiting hwaiting _ hnone hdue hzero _ =>
    exact .waiting (hends.waiting.trans hwaiting) hends.listening (hsent.trans hnone)
      (hends.due.trans hdue) (hseq.trans hzero) fun _ => hends.isOver
  | listening ts height hwaiting _ _ _ hframes =>
    rw [← hsent, ← hends.streamId, ← hends.due] at hframes
    exact .ended ts height (hends.waiting.trans hwaiting) hends.listening hends.isOver
      (hframes ▸ List.prefix_rfl)
  | ended ts height hwaiting _ _ hframes =>
    rw [← hsent, ← hends.streamId, ← hends.due] at hframes
    exact .ended ts height (hends.waiting.trans hwaiting) hends.listening hends.isOver hframes

theorem Phase.closed_listening (h : Phase leg socket) :
    socket.closed = true → socket.listening = false := by
  intro hclosed
  cases h with
  | waiting _ hlistening => exact hlistening
  | listening _ _ _ _ hopen =>
    rw [hopen] at hclosed
    cases hclosed
  | ended _ _ _ hlistening => exact hlistening

theorem Phase.endSubscription (h : Phase leg socket) : Phase leg socket.endSubscription := by
  refine h.ends (ends_endSubscription h.closed_listening) (sent_endSubscription socket) ?_
  unfold UpdatesSocket.endSubscription cleanup
  split <;> rfl

/-- What the phase does not speak of may change, and the socket may stop being open. -/
theorem Phase.congr {after : UpdatesSocket Leg} (h : Phase leg socket)
    (hsame : after = { socket with
      awaitingPong := after.awaitingPong, pinging := after.pinging, isOpen := after.isOpen })
    (hopen : after.isOpen = true → socket.isOpen = true) : Phase leg after := by
  have hover : socket.isOver = true → after.isOver = true := by
    intro hover
    rw [hsame]
    unfold isOver at hover ⊢
    cases hafter : after.isOpen with
    | false => rfl
    | true =>
      rw [hopen hafter] at hover
      exact hover
  cases h with
  | waiting hwaiting hlistening hsent hdue hseq hclosed =>
    rw [hsame] at hover ⊢
    exact .waiting hwaiting hlistening hsent hdue hseq fun h => hover (hclosed h)
  | listening ts height hwaiting hlistening hclosed hseq hsent =>
    rw [hsame]
    exact .listening ts height hwaiting hlistening hclosed hseq hsent
  | ended ts height hwaiting hlistening hended hsent =>
    rw [hsame] at hover ⊢
    exact .ended ts height hwaiting hlistening (hover hended) hsent

/-- The next frame goes out and the subscription goes on, or it ends. -/
theorem Phase.send (socket : UpdatesSocket Leg) {frame : Option OfferUpdatesFrame} {ts : Nat}
    {height : Option String} (byteLength : Json → Nat) (answer : SendAnswer)
    (hwaiting : socket.waiting = false)
    (hlistening : socket.listening = true) (hclosed : socket.closed = false)
    (hseq : socket.seq = socket.due.length)
    (hframes : socket.sent.map some ++ [frame] =
      streamFrames leg socket.streamId ts height socket.due) :
    Phase leg (UpdatesSocket.send byteLength frame answer socket).2 := by
  rcases send_cases byteLength frame answer hclosed with
    ⟨f, rfl, hsend⟩ | ⟨ended, hsend, hends, hsent⟩
  · rw [hsend]
    refine .listening ts height hwaiting hlistening hclosed hseq ?_
    dsimp only
    rw [List.map_append, ← hframes]
    rfl
  · rw [hsend]
    refine .ended ts height (hends.waiting.trans hwaiting) hends.listening hends.isOver ?_
    rw [hends.streamId, hends.due, ← hframes]
    rcases hsent with hsent | ⟨f, rfl, hsent⟩
    · rw [hsent]
      exact List.prefix_append _ _
    · rw [hsent, List.map_append]
      exact List.prefix_rfl

/-- The listener is attached and `ready` is sent, or the subscription ends. -/
theorem Phase.anchor (h : Phase leg socket) (height : Option String) (ts : Nat)
    (answer : SendAnswer) :
    Phase leg (socket.step leg byteLength (.anchor height ts answer)) := by
  unfold UpdatesSocket.step
  dsimp only
  cases hwaiting : socket.waiting with
  | false =>
    rw [Bool.not_false, if_pos rfl]
    exact h
  | true =>
    rw [Bool.not_true, if_neg Bool.false_ne_true]
    cases h with
    | listening _ _ hattached => exact absurd (hwaiting.symm.trans hattached) (by decide)
    | ended _ _ hattached => exact absurd (hwaiting.symm.trans hattached) (by decide)
    | waiting _ hlistening hsent hdue hseq hclosed =>
      have hnone : socket.sent.map some <+:
          streamFrames leg socket.streamId ts height socket.due := by
        rw [hsent]
        exact List.nil_prefix
      split
      · rename_i hover
        refine .ended ts height ?_ ?_ ?_ ?_ <;> unfold cleanup
        · split <;> rfl
        · split
          · exact hlistening
          · rfl
        · split
          · exact hclosed ‹_›
          · rename_i hopen
            simp_all [isOver]
        · split <;> exact hnone
      · rename_i hopen
        have hclosed : socket.closed = false := by simp_all
        have hframes : ({ socket with waiting := false, listening := true }
              : UpdatesSocket Leg).sent.map some ++ [some (.ready socket.streamId ts height)] =
            streamFrames leg socket.streamId ts height socket.due := by
          rw [hsent, hdue]
          rfl
        have hphase := Phase.send { socket with waiting := false, listening := true }
          byteLength answer rfl rfl hclosed
          (hseq.trans (congrArg List.length hdue).symm) hframes
        generalize UpdatesSocket.send byteLength (some (.ready socket.streamId ts height)) answer
          { socket with waiting := false, listening := true } = result at hphase ⊢
        obtain ⟨sent, after⟩ := result
        dsimp only
        split
        · exact hphase.congr rfl fun h => h
        · exact hphase

/-- An event goes out, or the subscription ends. -/
theorem Phase.released (h : Phase leg socket) (release : Release Leg) (answer : SendAnswer) :
    Phase leg (socket.step leg byteLength (.released release answer)) := by
  unfold UpdatesSocket.step
  dsimp only
  cases h with
  | waiting hwaiting hlistening hsent hdue hseq hclosed =>
    rw [if_pos hwaiting]
    exact .waiting hwaiting hlistening hsent hdue hseq hclosed
  | ended ts height hwaiting hlistening hover hsent =>
    rw [if_neg (by rw [hwaiting]; decide), if_neg (by rw [hlistening]; decide)]
    refine .ended ts height hwaiting hlistening hover ?_
    dsimp only
    rw [streamFrames_concat]
    exact hsent.trans (List.prefix_append _ _)
  | listening ts height hwaiting hlistening hclosed hseq hsent =>
    rw [if_neg (by rw [hwaiting]; decide), if_pos hlistening]
    have hframes : socket.sent.map some ++
        [updateFrame leg socket.streamId (socket.seq + 1) release] = streamFrames leg socket.streamId ts height (socket.due ++ [release]) := by
      rw [streamFrames_concat, hsent, hseq]
    exact Phase.send
      { socket with seq := socket.seq + 1, due := socket.due ++ [release] } byteLength answer
      hwaiting hlistening hclosed (by simp [hseq]) hframes

theorem Phase.step (h : Phase leg socket) (event : UpdatesEvent Leg) :
    Phase leg (socket.step leg byteLength event) := by
  cases event with
  | anchor height ts answer => exact h.anchor height ts answer
  | released release answer => exact h.released release answer
  | message => exact h.endSubscription
  | pong => exact h.congr rfl fun h => h
  | leavesOpen => exact h.congr rfl fun h => absurd h (by simp [UpdatesSocket.step])
  | gone =>
    refine h.ends ⟨rfl, cleanup_listening h.closed_listening, ?_, ?_, ?_⟩ ?_ ?_ <;>
    · unfold UpdatesSocket.step cleanup
      dsimp only
      split <;> rfl
  | keepalive pingThrows =>
    unfold UpdatesSocket.step
    dsimp only
    split
    · exact h
    split
    · exact h.endSubscription
    have hmarked : Phase leg { socket with awaitingPong := true } := h.congr rfl fun h => h
    split
    · exact hmarked.endSubscription
    · exact hmarked
  | shutdown => exact h.endSubscription

theorem Phase.run (leg : Leg → Option Json) (byteLength : Json → Nat) (streamId : String)
    (events : List (UpdatesEvent Leg)) : Phase leg (run leg byteLength streamId events) := by
  induction events using List.reverseRecOn with
  | nil => exact .waiting rfl rfl rfl rfl rfl fun h => absurd h Bool.false_ne_true
  | append_singleton events event ih =>
    unfold UpdatesSocket.run
    rw [List.foldl_append]
    exact ih.step event

/-- What a peer can rely on. -/
structure Unbroken (leg : Leg → Option Json) (socket : UpdatesSocket Leg) : Prop where
  /-- `ready` and the first of the events released since, each under its number. -/
  frames : ∃ ts height, socket.sent.map some <+:
    streamFrames leg socket.streamId ts height socket.due
  contiguous : Contiguous socket.sent
  /-- While the socket is not over, `ready` is still to come, or no event was skipped. -/
  complete : socket.isOver = false →
    socket.waiting = true ∧ socket.sent = [] ∨ socket.sent.length = socket.due.length + 1

theorem Phase.unbroken (h : Phase leg socket) : Unbroken leg socket := by
  cases h with
  | waiting hwaiting _ hsent =>
    refine ⟨⟨0, none, ?_⟩, ?_, fun _ => Or.inl ⟨hwaiting, hsent⟩⟩
    · rw [hsent]
      exact List.nil_prefix
    · rw [hsent]
      exact contiguous_nil
  | listening ts height _ _ _ _ hsent =>
    have hall : socket.sent.map some <+: streamFrames leg socket.streamId ts height socket.due :=
      hsent ▸ List.prefix_rfl
    refine ⟨⟨ts, height, hall⟩, contiguous_streamFrames hall, fun _ => Or.inr ?_⟩
    have hlength := congrArg List.length hsent
    rwa [List.length_map, length_streamFrames] at hlength
  | ended ts height _ _ hover hsent =>
    refine ⟨⟨ts, height, hsent⟩, contiguous_streamFrames hsent, fun h => ?_⟩
    rw [hover] at h
    cases h

/-- **A subscription sends `ready` and every event released since, in order, or it is over.** -/
theorem run_unbroken (leg : Leg → Option Json) (byteLength : Json → Nat) (streamId : String)
    (events : List (UpdatesEvent Leg)) : Unbroken leg (run leg byteLength streamId events) :=
  (Phase.run leg byteLength streamId events).unbroken

/-- A step takes back no frame. -/
theorem sent_step (socket : UpdatesSocket Leg) (event : UpdatesEvent Leg) :
    socket.sent <+: (socket.step leg byteLength event).sent := by
  have hcleanup : ∀ socket : UpdatesSocket Leg, socket.cleanup.sent = socket.sent := by
    intro socket
    unfold cleanup
    split <;> rfl
  have hsend : ∀ (socket : UpdatesSocket Leg) (sent : List OfferUpdatesFrame) frame answer,
      sent = socket.sent → sent <+: (send byteLength frame answer socket).2.sent := by
    rintro socket _ frame answer rfl
    cases hclosed : socket.closed with
    | true =>
      unfold send
      rw [hclosed, Bool.true_or, if_pos rfl, hcleanup]
    | false =>
      rcases send_cases byteLength frame answer hclosed with
        ⟨f, -, hsend⟩ | ⟨ended, hsend, -, hsent | ⟨f, -, hsent⟩⟩
      · rw [hsend]
        exact List.prefix_append _ _
      · rw [hsend, hsent]
      · rw [hsend, hsent]
        exact List.prefix_append _ _
  cases event with
  | anchor height ts answer =>
    unfold UpdatesSocket.step
    dsimp only
    split
    · exact List.prefix_rfl
    split
    · rw [hcleanup]
    split
    · exact hsend _ _ _ _ rfl
    · exact hsend _ _ _ _ rfl
  | released release answer =>
    unfold UpdatesSocket.step
    dsimp only
    split
    · exact List.prefix_rfl
    split
    · exact hsend _ _ _ _ rfl
    · exact List.prefix_rfl
  | message => exact (sent_endSubscription socket).symm ▸ List.prefix_rfl
  | pong | leavesOpen => exact List.prefix_rfl
  | gone | shutdown => exact (hcleanup socket).symm ▸ List.prefix_rfl
  | keepalive pingThrows =>
    unfold UpdatesSocket.step
    dsimp only
    split
    · exact List.prefix_rfl
    split
    · rw [sent_endSubscription]
    split
    · rw [sent_endSubscription]
    · exact List.prefix_rfl

end UpdatesSocket

/-! ## The subscription and its client -/

/-- A frame as the client gets it: the lengths of the text are those of its value. -/
def OfferUpdatesFrame.wire (textLength byteLength : Json → Nat) (frame : OfferUpdatesFrame) :
    SocketMessage :=
  .text (textLength frame.value) (byteLength frame.value) (some frame.value)

/-- A subscription and its client. The first `arrived` frames have arrived. -/
structure UpdatesLink (Leg : Type) where
  server : UpdatesSocket Leg
  arrived : Nat := 0
  client : UpdatesClient := {}

def ClientEvent.isMessage : ClientEvent → Bool
  | message _ => true
  | deadline | error | closed | stop => false

/-- A step of the node, the next frame arrives, or the client's socket sees something else. -/
inductive LinkEvent (Leg : Type)
  | server (event : UpdatesEvent Leg)
  | arrives
  | client (event : ClientEvent) (own : event.isMessage = false)

namespace UpdatesLink

def step (leg : Leg → Option Json) (textLength byteLength : Json → Nat)
    (opts : OfferUpdatesStreamOpts) (link : UpdatesLink Leg) : LinkEvent Leg → UpdatesLink Leg
  | .server event => { link with server := link.server.step leg byteLength event }
  | .arrives =>
    match link.server.sent[link.arrived]? with
    | some frame => { link with
        arrived := link.arrived + 1
        client := link.client.step opts (.message (frame.wire textLength byteLength)) }
    | none => link
  | .client event _ => { link with client := link.client.step opts event }

/-- The link after a list of events. -/
def run (leg : Leg → Option Json) (textLength byteLength : Json → Nat)
    (opts : OfferUpdatesStreamOpts) (streamId : String) (events : List (LinkEvent Leg)) :
    UpdatesLink Leg :=
  events.foldl (step leg textLength byteLength opts) { server := { streamId } }

variable {textLength : Json → Nat} {opts : OfferUpdatesStreamOpts} {link : UpdatesLink Leg}

/-- The client is what its own events make it, and its messages are the frames that arrived. -/
structure Joined (leg : Leg → Option Json) (textLength byteLength : Json → Nat)
    (opts : OfferUpdatesStreamOpts) (link : UpdatesLink Leg) : Prop where
  server : UpdatesSocket.Phase leg link.server
  arrived : link.arrived ≤ link.server.sent.length
  client : ∃ events, link.client = UpdatesClient.run opts events ∧
    messagesOf events = (link.server.sent.take link.arrived).map (·.wire textLength byteLength)

theorem messagesOf_concat (events : List ClientEvent) (event : ClientEvent) :
    messagesOf (events ++ [event]) = messagesOf events ++ messagesOf [event] := by
  unfold messagesOf
  rw [List.filterMap_append]

theorem clientRun_concat (events : List ClientEvent) (event : ClientEvent) :
    UpdatesClient.run opts (events ++ [event]) =
      (UpdatesClient.run opts events).step opts event := by
  unfold UpdatesClient.run
  rw [List.foldl_append]
  rfl

theorem Joined.step (h : Joined leg textLength byteLength opts link) (event : LinkEvent Leg) :
    Joined leg textLength byteLength opts (link.step leg textLength byteLength opts event) := by
  obtain ⟨hserver, harrived, events, hclient, hmessages⟩ := h
  cases event with
  | server event =>
    obtain ⟨more, hmore⟩ : link.server.sent <+: (link.server.step leg byteLength event).sent :=
      UpdatesSocket.sent_step link.server event
    refine ⟨hserver.step event, ?_, events, hclient, ?_⟩
    · show link.arrived ≤ (link.server.step leg byteLength event).sent.length
      rw [← hmore, List.length_append]
      exact Nat.le_add_right_of_le harrived
    · show messagesOf events =
        ((link.server.step leg byteLength event).sent.take link.arrived).map _
      rw [← hmore, List.take_append_of_le_length harrived, hmessages]
  | arrives =>
    unfold UpdatesLink.step
    cases hnext : link.server.sent[link.arrived]? with
    | none => exact ⟨hserver, harrived, events, hclient, hmessages⟩
    | some frame =>
      obtain ⟨hlt, hframe⟩ := List.getElem?_eq_some_iff.mp hnext
      refine ⟨hserver, hlt, events ++ [.message (frame.wire textLength byteLength)], ?_, ?_⟩
      · rw [clientRun_concat, ← hclient]
      · rw [messagesOf_concat, hmessages]
        show _ = (link.server.sent.take (link.arrived + 1)).map _
        rw [List.take_add_one, hnext, List.map_append]
        rfl
  | client event own =>
    refine ⟨hserver, harrived, events ++ [event], ?_, ?_⟩
    · rw [clientRun_concat, ← hclient]
      rfl
    · rw [messagesOf_concat, hmessages]
      cases event with
      | message => cases own
      | deadline | error | closed | stop => exact List.append_nil _

theorem Joined.run (leg : Leg → Option Json) (textLength byteLength : Json → Nat)
    (opts : OfferUpdatesStreamOpts) (streamId : String) (events : List (LinkEvent Leg)) :
    Joined leg textLength byteLength opts
      (run leg textLength byteLength opts streamId events) := by
  induction events using List.reverseRecOn with
  | nil =>
    have hserver := UpdatesSocket.Phase.run leg byteLength streamId []
    exact ⟨hserver, Nat.le_refl 0, [], rfl, rfl⟩
  | append_singleton events event ih =>
    unfold UpdatesLink.run
    rw [List.foldl_append]
    exact ih.step event

end UpdatesLink

end ZswapKernel
