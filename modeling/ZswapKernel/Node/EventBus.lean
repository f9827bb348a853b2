import ZswapKernel.Node.Database

/-!
# The commit gate of the event bus

`packages/node/event-bus.ts`: an event of a block waits in `pending` until a separate connection has
seen that block. A retried block emits its events again, so the gate drops an emission whose height
and `identity` are already waiting.

The gate delivers every distinct event once and in order as long as no block emits two different
events of one identity (`gate_delivers_once`). It can: a rejection of a blob that does not validate
carries no offer hash, so all of them share the empty subject.
-/

namespace ZswapKernel

/-- `AppEvent`. The legs of an indexed offer are opaque to the bus. -/
inductive AppEvent (Leg : Type)
  | offerIndexed (offerId : Nat) (offerHash : String) (blockHeight : Int) (gives wants : List Leg)
  | offerConsumed (offerId : Nat) (offerHash nullifier : Option String)
      (unshieldedSpend : Option UnshieldedSpendRef)
  | offerExpired (offerId : Nat) (offerHash : Option String)
  | tokenMinted (name color : String) (kind : Option String)
  | offerRejected (code reason offerHash : Option String) (blockHeight : Int)
  deriving DecidableEq, Repr

namespace AppEvent

variable {Leg : Type}

def type : AppEvent Leg → String
  | offerIndexed .. => "offer_indexed"
  | offerConsumed .. => "offer_consumed"
  | offerExpired .. => "offer_expired"
  | tokenMinted .. => "token_minted"
  | offerRejected .. => "offer_rejected"

/-- `"offerHash" in e && e.offerHash`: the empty text counts as absent. -/
def offerHash : AppEvent Leg → Option String
  | offerIndexed _ hash .. => some hash |>.filter (· ≠ "")
  | offerConsumed _ hash .. | offerExpired _ hash | offerRejected _ _ hash _ => hash.filter (· ≠ "")
  | tokenMinted .. => none

/-- `"offerId" in e`. -/
def offerId : AppEvent Leg → Option Nat
  | offerIndexed id .. | offerConsumed id .. | offerExpired id _ => some id
  | tokenMinted .. | offerRejected .. => none

/-- `"color" in e`. -/
def color : AppEvent Leg → Option String
  | tokenMinted _ color _ => some color
  | _ => none

/-- The subject of `identity`: the hash before the row id, and the id before the color. -/
def subject (e : AppEvent Leg) : String :=
  match e.offerHash with
  | some hash => hash
  | none =>
    match e.offerId with
    | some id => toString id
    | none => e.color.getD ""

/-- `identity`. -/
def identity (e : AppEvent Leg) : String := s!"{e.type}:{e.subject}"

/-- What an event says: a retry that inserts an offer again hands it another row id, so the id of
an offer that has a hash says nothing. -/
def content (e : AppEvent Leg) : AppEvent Leg :=
  match e.offerHash, e with
  | some _, offerIndexed _ hash height gives wants => offerIndexed 0 hash height gives wants
  | some _, offerConsumed _ hash nullifier spend => offerConsumed 0 hash nullifier spend
  | some _, offerExpired _ hash => offerExpired 0 hash
  | _, e => e

theorem content_type (e : AppEvent Leg) : e.content.type = e.type := by
  unfold content
  split <;> rfl

theorem content_offerHash (e : AppEvent Leg) : e.content.offerHash = e.offerHash := by
  unfold content
  split <;> rfl

theorem content_of_no_hash {e : AppEvent Leg} (h : e.offerHash = none) : e.content = e := by
  unfold content
  rw [h]

theorem subject_content (e : AppEvent Leg) : e.content.subject = e.subject := by
  cases h : e.offerHash with
  | none => rw [content_of_no_hash h]
  | some hash =>
    unfold subject
    rw [content_offerHash, h]

/-- Two emissions of one event have one identity: retries collapse. -/
theorem identity_congr {e f : AppEvent Leg} (h : e.content = f.content) :
    e.identity = f.identity := by
  unfold identity
  rw [← content_type e, ← subject_content e, h, content_type, subject_content]

end AppEvent

/-! ## The gate -/

structure PendingEvent (Leg : Type) where
  atHeight : Int
  key : String
  event : AppEvent Leg
  deriving DecidableEq, Repr

/-- An event a listener has seen, with the height it waited for. -/
structure Delivery (Leg : Type) where
  event : AppEvent Leg
  atHeight : Option Int
  deriving DecidableEq, Repr

/-- The module state of the bus, and what its listeners have seen. -/
structure EventBus (Leg : Type) where
  pending : List (PendingEvent Leg) := []
  committedHeight : Int := -1
  delivered : List (Delivery Leg) := []
  deriving DecidableEq, Repr

variable {Leg : Type}

namespace EventBus

/-- The loop of `flush`, from the last entry to the first: what is due, and what stays. -/
def drain (committedHeight : Int) (pending : List (PendingEvent Leg)) :
    List (PendingEvent Leg) × List (PendingEvent Leg) :=
  pending.foldr (fun p (ready, kept) =>
    if p.atHeight ≤ committedHeight then (p :: ready, kept) else (ready, p :: kept)) ([], [])

/-- `flush`. -/
def flush (bus : EventBus Leg) : EventBus Leg :=
  let (ready, kept) := drain bus.committedHeight bus.pending
  { bus with
    pending := kept
    delivered := bus.delivered ++ ready.map fun p => ⟨p.event, some p.atHeight⟩ }

/-- `emitAppEvent`. A height that is absent or no finite number is `none`. -/
def emitAppEvent (event : AppEvent Leg) (atHeight : Option Int) (bus : EventBus Leg) :
    EventBus Leg :=
  match atHeight with
  | none => { bus with delivered := bus.delivered ++ [⟨event, none⟩] }
  | some h =>
    if h ≤ bus.committedHeight then
      { bus with delivered := bus.delivered ++ [⟨event, some h⟩] }
    else if bus.pending.any fun p => p.atHeight == h && p.key == event.identity then bus
    else { bus with pending := bus.pending ++ [⟨h, event.identity, event⟩] }

/-- `markBlockCommitted`. -/
def markBlockCommitted (height : Option Int) (bus : EventBus Leg) : EventBus Leg :=
  match height with
  | none => bus
  | some h =>
    if h ≤ bus.committedHeight then bus
    else flush { bus with committedHeight := h }

end EventBus

/-- A call of the bus. -/
inductive BusCall (Leg : Type)
  | emit (event : AppEvent Leg) (atHeight : Option Int)
  | mark (height : Option Int)
  deriving DecidableEq, Repr

def BusCall.apply (bus : EventBus Leg) : BusCall Leg → EventBus Leg
  | emit event atHeight => bus.emitAppEvent event atHeight
  | mark height => bus.markBlockCommitted height

/-- The bus after a list of calls. -/
def EventBus.run (calls : List (BusCall Leg)) : EventBus Leg := calls.foldl BusCall.apply {}

/-! ## What was emitted and what was delivered -/

/-- The emissions of a run that name a block, with what they say. -/
def emissions (calls : List (BusCall Leg)) : List (Int × AppEvent Leg) :=
  calls.filterMap fun
    | .emit event (some h) => some (h, event.content)
    | _ => none

/-- The emissions of a run that name no block. -/
def ungatedEmissions (calls : List (BusCall Leg)) : List (AppEvent Leg) :=
  calls.filterMap fun
    | .emit event none => some event
    | _ => none

/-- The deliveries of gated events, with what they say. -/
def EventBus.released (bus : EventBus Leg) : List (Int × AppEvent Leg) :=
  bus.delivered.filterMap fun d => d.atHeight.map fun h => (h, d.event.content)

/-- The deliveries of ungated events. -/
def EventBus.published (bus : EventBus Leg) : List (AppEvent Leg) :=
  bus.delivered.filterMap fun d => if d.atHeight.isNone then some d.event else none

/-- What waits, with what it says. -/
def EventBus.waiting (bus : EventBus Leg) : List (Int × AppEvent Leg) :=
  bus.pending.map fun p => (p.atHeight, p.event.content)

/-! ## One call -/

theorem run_append (calls : List (BusCall Leg)) (call : BusCall Leg) :
    EventBus.run (calls ++ [call]) = call.apply (EventBus.run calls) := by
  unfold EventBus.run
  rw [List.foldl_append, List.foldl_cons, List.foldl_nil]

theorem emissions_emit (calls : List (BusCall Leg)) (event : AppEvent Leg) (h : Int) :
    emissions (calls ++ [.emit event (some h)]) = emissions calls ++ [(h, event.content)] := by
  simp [emissions]

namespace EventBus

/-- `drain` keeps the order on both sides. -/
theorem drain_eq (c : Int) (pending : List (PendingEvent Leg)) :
    drain c pending =
      (pending.filter (·.atHeight ≤ c), pending.filter (c < ·.atHeight)) := by
  unfold drain
  induction pending with
  | nil => rfl
  | cons p pending ih =>
    rw [List.foldr_cons, ih]
    by_cases h : p.atHeight ≤ c
    · simp [h, Int.not_lt.mpr h]
    · simp [h, Int.not_le.mp h]

theorem published_emit_none (event : AppEvent Leg) (bus : EventBus Leg) :
    (bus.emitAppEvent event none).published = bus.published ++ [event] := by
  simp [emitAppEvent, published]

theorem released_emit_none (event : AppEvent Leg) (bus : EventBus Leg) :
    (bus.emitAppEvent event none).released = bus.released := by
  simp [emitAppEvent, released]

/-- An event of a committed block goes out at once. -/
theorem emit_due {event : AppEvent Leg} {h : Int} {bus : EventBus Leg}
    (hdue : h ≤ bus.committedHeight) :
    bus.emitAppEvent event (some h) =
      { bus with delivered := bus.delivered ++ [⟨event, some h⟩] } := by
  unfold emitAppEvent
  simp [hdue]

theorem emit_repeated {event : AppEvent Leg} {h : Int} {bus : EventBus Leg}
    {p : PendingEvent Leg} (hlate : bus.committedHeight < h) (hp : p ∈ bus.pending)
    (hheight : p.atHeight = h) (hkey : p.key = event.identity) :
    bus.emitAppEvent event (some h) = bus := by
  have hany : (bus.pending.any fun p => p.atHeight == h && p.key == event.identity) = true :=
    List.any_eq_true.mpr ⟨p, hp, by simp [hheight, hkey]⟩
  unfold emitAppEvent
  simp [Int.not_le.mpr hlate, hany]

theorem emit_waits {event : AppEvent Leg} {h : Int} {bus : EventBus Leg}
    (hlate : bus.committedHeight < h)
    (hnew : ∀ p ∈ bus.pending, p.atHeight = h → p.key ≠ event.identity) :
    bus.emitAppEvent event (some h) =
      { bus with pending := bus.pending ++ [⟨h, event.identity, event⟩] } := by
  have hany : (bus.pending.any fun p => p.atHeight == h && p.key == event.identity) = false := by
    rw [List.any_eq_false]
    intro p hp
    simp only [Bool.and_eq_true, beq_iff_eq, not_and]
    exact hnew p hp
  unfold emitAppEvent
  simp [Int.not_le.mpr hlate, hany]

theorem released_append (bus : EventBus Leg) (ready : List (PendingEvent Leg)) :
    EventBus.released { bus with
      delivered := bus.delivered ++ ready.map fun p => ⟨p.event, some p.atHeight⟩ } =
      bus.released ++ ready.map fun p => (p.atHeight, p.event.content) := by
  simp [released, List.filterMap_append, List.filterMap_map]

/-- A commit mark above the last one releases what has become due. -/
theorem mark_later {c : Int} {bus : EventBus Leg} (hlater : bus.committedHeight < c) :
    bus.markBlockCommitted (some c) =
      { pending := bus.pending.filter (c < ·.atHeight)
        committedHeight := c
        delivered := bus.delivered ++
          (bus.pending.filter (·.atHeight ≤ c)).map fun p => ⟨p.event, some p.atHeight⟩ } := by
  unfold markBlockCommitted flush
  simp [Int.not_le.mpr hlater, drain_eq]

theorem published_append (bus : EventBus Leg) (ready : List (PendingEvent Leg)) :
    EventBus.published { bus with
      delivered := bus.delivered ++ ready.map fun p => ⟨p.event, some p.atHeight⟩ } =
      bus.published := by
  simp [published, List.filterMap_append, List.filterMap_map]

end EventBus

theorem EventBus.mem_waiting {bus : EventBus Leg} {p : PendingEvent Leg} (h : p ∈ bus.pending) :
    (p.atHeight, p.event.content) ∈ bus.waiting :=
  List.mem_map_of_mem h

/-! ## The distinct events of a run -/

variable [DecidableEq Leg]

/-- The distinct events of a run, each at its first emission. -/
def distinctEmissions (calls : List (BusCall Leg)) : List (Int × AppEvent Leg) :=
  (emissions calls).eraseDups

/-- Every distinct event whose block is committed has been delivered once, in the order of the
first emissions, and no other; an event of no block goes out whenever it is emitted. -/
structure DeliversOnce (calls : List (BusCall Leg)) : Prop where
  released : (EventBus.run calls).released =
    (distinctEmissions calls).filter fun x => x.1 ≤ (EventBus.run calls).committedHeight
  published : (EventBus.run calls).published = ungatedEmissions calls

/-- A call the gate can take after the calls before it.

* An emission for a block that counts as committed is not a repetition.
* An emission for a later block says the same as every waiting event of its height and identity.
* A commit mark releases no event emitted before one that is out already. -/
def BusCall.Fits (before : List (BusCall Leg)) : BusCall Leg → Prop
  | emit _ none | mark none => True
  | emit event (some h) =>
    if h ≤ (EventBus.run before).committedHeight then (h, event.content) ∉ emissions before
    else ∀ p ∈ (EventBus.run before).pending, p.atHeight = h → p.key = event.identity →
      p.event.content = event.content
  | mark (some h) => (distinctEmissions before).Pairwise fun x y =>
      y.1 ≤ (EventBus.run before).committedHeight → x.1 ≤ h →
        x.1 ≤ (EventBus.run before).committedHeight

instance (before : List (BusCall Leg)) : (call : BusCall Leg) → Decidable (call.Fits before)
  | .emit _ none | .mark none => .isTrue trivial
  | .emit event (some h) => inferInstanceAs (Decidable
      (if h ≤ (EventBus.run before).committedHeight then (h, event.content) ∉ emissions before
      else ∀ p ∈ (EventBus.run before).pending, p.atHeight = h → p.key = event.identity →
        p.event.content = event.content))
  | .mark (some h) => inferInstanceAs (Decidable ((distinctEmissions before).Pairwise fun x y =>
      y.1 ≤ (EventBus.run before).committedHeight → x.1 ≤ h →
        x.1 ≤ (EventBus.run before).committedHeight))

/-- A run in which every call fits the ones before it. -/
inductive FitCalls : List (BusCall Leg) → Prop
  | start : FitCalls []
  | call {before : List (BusCall Leg)} {call : BusCall Leg} (run : FitCalls before)
      (fits : call.Fits before) : FitCalls (before ++ [call])

theorem distinctEmissions_old {calls : List (BusCall Leg)} {event : AppEvent Leg} {h : Int}
    (hold : (h, event.content) ∈ emissions calls) :
    distinctEmissions (calls ++ [.emit event (some h)]) = distinctEmissions calls := by
  unfold distinctEmissions
  rw [emissions_emit, List.eraseDups_append]
  simp [List.removeAll, hold]

theorem distinctEmissions_new {calls : List (BusCall Leg)} {event : AppEvent Leg} {h : Int}
    (hnew : (h, event.content) ∉ emissions calls) :
    distinctEmissions (calls ++ [.emit event (some h)]) =
      distinctEmissions calls ++ [(h, event.content)] := by
  unfold distinctEmissions
  rw [emissions_emit, List.eraseDups_append]
  simp [List.removeAll, hnew, List.eraseDups_cons]

/-- A call that names no height adds no emission. -/
theorem distinctEmissions_mark (calls : List (BusCall Leg)) (height : Option Int) :
    distinctEmissions (calls ++ [.mark height]) = distinctEmissions calls := by
  simp [distinctEmissions, emissions]

/-- The gate splits the distinct emissions at the committed height. -/
structure GateInvariant (calls : List (BusCall Leg)) : Prop extends DeliversOnce calls where
  waiting : (EventBus.run calls).waiting =
    (distinctEmissions calls).filter fun x => (EventBus.run calls).committedHeight < x.1
  keyed : ∀ p ∈ (EventBus.run calls).pending, p.key = p.event.identity

/-- An emission that is not yet due was emitted before iff it waits. -/
theorem GateInvariant.emitted_iff {calls : List (BusCall Leg)} (hinv : GateInvariant calls)
    {x : Int × AppEvent Leg} (hlate : (EventBus.run calls).committedHeight < x.1) :
    x ∈ emissions calls ↔ x ∈ (EventBus.run calls).waiting := by
  rw [hinv.waiting, List.mem_filter, distinctEmissions, List.mem_eraseDups]
  simp [hlate]

/-- **An emission keeps the split.** -/
theorem GateInvariant.emit {calls : List (BusCall Leg)} (hinv : GateInvariant calls)
    {event : AppEvent Leg} {atHeight : Option Int}
    (hfits : (BusCall.emit event atHeight).Fits calls) :
    GateInvariant (calls ++ [.emit event atHeight]) := by
  have hrun := run_append calls (.emit event atHeight)
  cases atHeight with
  | none =>
    have hsame : distinctEmissions (calls ++ [.emit event none]) = distinctEmissions calls := by
      simp [distinctEmissions, emissions]
    have hungated : ungatedEmissions (calls ++ [.emit event none]) =
        ungatedEmissions calls ++ [event] := by
      simp [ungatedEmissions]
    refine ⟨⟨?_, ?_⟩, ?_, ?_⟩
    · rw [hrun, hsame]
      exact (EventBus.released_emit_none event _).trans hinv.released
    · rw [hrun, hungated, ← hinv.published]
      exact EventBus.published_emit_none event _
    · rw [hrun, hsame]
      exact hinv.waiting
    · rw [hrun]
      exact hinv.keyed
  | some h =>
    have hungated : ungatedEmissions (calls ++ [.emit event (some h)]) =
        ungatedEmissions calls := by
      simp [ungatedEmissions]
    simp only [BusCall.Fits] at hfits
    by_cases hdue : h ≤ (EventBus.run calls).committedHeight
    · rw [if_pos hdue] at hfits
      have hnew := distinctEmissions_new hfits
      rw [BusCall.apply, EventBus.emit_due hdue] at hrun
      refine ⟨⟨?_, ?_⟩, ?_, ?_⟩
      · have hmore := EventBus.released_append (EventBus.run calls) [⟨h, event.identity, event⟩]
        rw [hrun, hnew, List.filter_append, ← hinv.released]
        simpa [hdue] using hmore
      · have hmore := EventBus.published_append (EventBus.run calls) [⟨h, event.identity, event⟩]
        rw [hrun, hungated, ← hinv.published]
        exact hmore
      · rw [hrun, hnew, List.filter_append, ← hinv.waiting]
        simp [EventBus.waiting, hdue]
      · rw [hrun]
        exact hinv.keyed
    · rw [if_neg hdue] at hfits
      have hlate := Int.not_le.mp hdue
      by_cases hwaits : ∃ p ∈ (EventBus.run calls).pending,
          p.atHeight = h ∧ p.key = event.identity
      · obtain ⟨p, hp, hheight, hkey⟩ := hwaits
        have hold : (h, event.content) ∈ emissions calls := by
          rw [hinv.emitted_iff hlate, ← hheight, ← hfits p hp hheight hkey]
          exact EventBus.mem_waiting hp
        rw [BusCall.apply, EventBus.emit_repeated hlate hp hheight hkey] at hrun
        refine ⟨⟨?_, ?_⟩, ?_, ?_⟩
        · rw [hrun, distinctEmissions_old hold]
          exact hinv.released
        · rw [hrun, hungated]
          exact hinv.published
        · rw [hrun, distinctEmissions_old hold]
          exact hinv.waiting
        · rw [hrun]
          exact hinv.keyed
      · have hfirst : ∀ p ∈ (EventBus.run calls).pending, p.atHeight = h →
            p.key ≠ event.identity :=
          fun p hp hheight hkey => hwaits ⟨p, hp, hheight, hkey⟩
        have hnew : (h, event.content) ∉ emissions calls := by
          rw [hinv.emitted_iff hlate]
          intro hmem
          obtain ⟨p, hp, heq⟩ := List.mem_map.mp hmem
          obtain ⟨hheight, hcontent⟩ := Prod.mk.inj heq
          exact hfirst p hp hheight
            ((hinv.keyed p hp).trans (AppEvent.identity_congr hcontent))
        have hadd := distinctEmissions_new hnew
        rw [BusCall.apply, EventBus.emit_waits hlate hfirst] at hrun
        refine ⟨⟨?_, ?_⟩, ?_, ?_⟩
        · rw [hrun, hadd, List.filter_append, ← hinv.released]
          simp [EventBus.released, hdue]
        · rw [hrun, hungated]
          exact hinv.published
        · rw [hrun, hadd, List.filter_append, ← hinv.waiting]
          simp [EventBus.waiting, hlate]
        · rw [hrun]
          intro p hp
          rcases List.mem_append.mp hp with hold | hnew
          · exact hinv.keyed p hold
          · rw [List.mem_singleton.mp hnew]

/-- A filter in two rounds is one filter when what the first round keeps comes first. -/
theorem filter_rounds {α : Type} {q r : α → Bool} (hqr : ∀ x, q x → r x) {l : List α}
    (hordered : l.Pairwise fun x y => q y → r x → q x) :
    l.filter q ++ (l.filter fun x => !q x).filter r = l.filter r := by
  induction l with
  | nil => rfl
  | cons x l ih =>
    obtain ⟨hx, htail⟩ := List.pairwise_cons.mp hordered
    have ih := ih htail
    by_cases hq : q x
    · simpa [hq, hqr x hq] using ih
    · by_cases hr : r x
      · have hnone : l.filter q = [] := by
          rw [List.filter_eq_nil_iff]
          exact fun y hy hqy => hq (hx y hy hqy hr)
        rw [hnone, List.nil_append] at ih
        simp [hq, hr, hnone, ih]
      · simpa [hq, hr] using ih

/-- **A commit mark keeps the split.** -/
theorem GateInvariant.mark {calls : List (BusCall Leg)} (hinv : GateInvariant calls)
    {height : Option Int} (hfits : (BusCall.mark height).Fits calls) :
    GateInvariant (calls ++ [.mark height]) := by
  have hrun := run_append calls (.mark height)
  have hsame := distinctEmissions_mark calls height
  have hungated : ungatedEmissions (calls ++ [.mark height]) = ungatedEmissions calls := by
    simp [ungatedEmissions]
  have hstays (hrun : EventBus.run (calls ++ [.mark height]) = EventBus.run calls) :
      GateInvariant (calls ++ [.mark height]) := by
    refine ⟨⟨?_, ?_⟩, ?_, ?_⟩
    · rw [hrun, hsame]
      exact hinv.released
    · rw [hrun, hungated]
      exact hinv.published
    · rw [hrun, hsame]
      exact hinv.waiting
    · rw [hrun]
      exact hinv.keyed
  cases height with
  | none => exact hstays hrun
  | some c =>
    by_cases hpast : c ≤ (EventBus.run calls).committedHeight
    · refine hstays (hrun.trans ?_)
      simp [BusCall.apply, EventBus.markBlockCommitted, hpast]
    · have hlater := Int.not_le.mp hpast
      rw [BusCall.apply, EventBus.mark_later hlater] at hrun
      refine ⟨⟨?_, ?_⟩, ?_, ?_⟩
      · have hmore := EventBus.released_append (EventBus.run calls)
          ((EventBus.run calls).pending.filter (·.atHeight ≤ c))
        have hdue : ((EventBus.run calls).pending.filter (·.atHeight ≤ c)).map
            (fun p => (p.atHeight, p.event.content)) =
              (EventBus.run calls).waiting.filter (·.1 ≤ c) := by
          rw [EventBus.waiting, List.filter_map]
          rfl
        have hsplit := filter_rounds (q := fun x => x.1 ≤ (EventBus.run calls).committedHeight)
          (r := fun x => x.1 ≤ c) (fun x hx => by simp at hx ⊢; omega)
          (hfits.imp fun h hy hx => by simpa using h (by simpa using hy) (by simpa using hx))
        rw [hrun, hsame, ← hsplit, ← hinv.released]
        refine hmore.trans ?_
        rw [hdue, hinv.waiting]
        refine congrArg (_ ++ List.filter _ ·) (List.filter_congr fun x _ => ?_)
        rw [← decide_not, decide_eq_decide, Int.not_le]
      · rw [hrun, hungated, ← hinv.published]
        exact EventBus.published_append _ _
      · have hlate : (EventBus.run (calls ++ [.mark (some c)])).waiting =
            (EventBus.run calls).waiting.filter (c < ·.1) := by
          rw [hrun, EventBus.waiting, EventBus.waiting, List.filter_map]
          rfl
        have hcommitted : (EventBus.run (calls ++ [.mark (some c)])).committedHeight = c := by
          rw [hrun]
        rw [hlate, hsame, hcommitted, hinv.waiting, List.filter_filter]
        refine List.filter_congr fun x _ => ?_
        rw [← Bool.decide_and]
        refine decide_eq_decide.mpr ?_
        omega
      · rw [hrun]
        exact fun p hp => hinv.keyed p (List.mem_of_mem_filter hp)

/-- **The gate of a run whose calls fit.** -/
theorem GateInvariant.of_fit {calls : List (BusCall Leg)} (hfit : FitCalls calls) :
    GateInvariant calls := by
  induction hfit with
  | start => exact ⟨⟨rfl, rfl⟩, rfl, fun p hp => absurd hp List.not_mem_nil⟩
  | @call before call run fits ih =>
    cases call with
    | emit event atHeight => exact ih.emit fits
    | mark height => exact ih.mark fits

/-- **The gate delivers every event exactly once**, in every run whose calls fit. -/
theorem gate_delivers_once (calls : List (BusCall Leg)) (hfit : FitCalls calls) :
    DeliversOnce calls :=
  (GateInvariant.of_fit hfit).toDeliversOnce

/-- An expiry of a block that is tried twice, under two row ids. -/
theorem gate_delivers_once_retry :
    DeliversOnce ([.emit (.offerExpired 1 (some "a")) (some 5),
      .emit (.offerExpired 3 (some "a")) (some 5), .mark (some 5)] : List (BusCall Unit)) :=
  gate_delivers_once _ (.call (.call (.call .start (by decide)) (by decide)) (by decide))

/-- Two blobs of one block fail validation for different reasons, and one rejection goes out. -/
theorem two_rejections_one_delivered :
    ¬ ∀ calls : List (BusCall Unit), DeliversOnce calls := by
  intro h
  have hreleased := (h [
    .emit (.offerRejected (some "TOO_LARGE") (some "offer too large") none 7) (some 7),
    .emit (.offerRejected (some "BAD_DESERIALIZE") (some "unexpected end") none 7) (some 7),
    .mark (some 7)]).released
  exact absurd hreleased (by decide)

end ZswapKernel
