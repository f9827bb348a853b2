import ZswapKernel.Node.OfferGate

/-!
# The batcher pays for an offer

`validateOffer` and `submitBatch` of `packages/batcher/celestia.ts`, with the `DedupStore` of
`packages/offer-guard/mod.ts`. A call checks the store, verifies the offer, and waits for its prices;
an offer that passes is queued, and the store is written when its submission has returned. Calls,
answers and submissions come in any order.

The base adapter and its queue are not part of the repository: it may refuse an input
(`baseRefusal`), submits what is queued one by one, keeps what it failed to submit, and may give up
on it. The verdict a refusal prints is kept as numbers.

* `once_run` — when every offer that passes is neither queued nor published, none is paid for twice.
* `twice_of_stale` — an offer that passes otherwise may be paid for twice.
-/

namespace ZswapKernel

/-! ## The published offers -/

/-- Published hashes, in the order of their insertion. -/
structure DedupStore where
  seen : List String := []
  maxEntries : Nat := 100000

namespace DedupStore

def has (store : DedupStore) (offerHash : String) : Bool := store.seen.contains offerHash

/-- A full store evicts its oldest hash. -/
def add (store : DedupStore) (offerHash : String) : DedupStore :=
  if store.has offerHash then store
  else
    let kept := if store.maxEntries ≤ store.seen.length then store.seen.drop 1 else store.seen
    { store with seen := kept ++ [offerHash] }

end DedupStore

/-! ## The gate -/

/-- What the batcher reads besides its store. -/
structure BatcherEnv where
  /-- `super.validateInput`: the error of an input the base adapter refuses. -/
  baseRefusal : String → Option String
  ledger : Ledger
  decode : String → Except String (List UInt8)
  offerMaxBytes : Nat
  policy : SponsorPolicy
  unpriced : UnpricedPolicy

/-- `lookup.lookup(colors)`. -/
structure LookupAnswer where
  prices : PriceTable
  discount : Double
  unavailable : List String
  detail : Option String

inductive BatcherRefusal
  | error (text : String)
  | notSponsored (verdict : SponsorshipVerdict) (discount : Double)
  /-- The call rejects. -/
  | thrown (message : String)

def BatcherEnv.hashOf (env : BatcherEnv) (input : String) : Option String :=
  (offerHashFromBlob env.ledger env.decode input).toOption

/-- `validateOffer` up to its `await`. -/
def validateOffer (env : BatcherEnv) (published : DedupStore) (tblock : Int) (input : String) :
    Except BatcherRefusal OfferValidation :=
  match env.baseRefusal input with
  | some error => .error (.error error)
  | none =>
    match (env.hashOf input).filter published.has with
    | some hash => .error (.error (s!"DUPLICATE_OFFER: this batcher already published {hash} — not "
        ++ "paying twice for the same bytes"))
    | none =>
      match validateZswapOffer env.ledger env.decode env.offerMaxBytes input with
      | .error rejection => .error (.error s!"{rejection.error}: {rejection.reason}")
      | .ok validation =>
        match verifyOfferCrypto env.ledger validation.tx tblock with
        | .error rejection => .error (.error s!"{rejection.code.text}: {rejection.reason}")
        | .ok () => .ok validation

/-- `checkForCelestiaSponsorship`; there is no answer when no price source is configured. -/
def checkForCelestiaSponsorship (env : BatcherEnv) (legs : SponsorshipLegs)
    (answer : Option LookupAnswer) : Except BatcherRefusal Unit :=
  if env.policy = .off then .ok ()
  else
    let colors := (legColors legs.all).eraseDups
    let unavailable := fun detail : String =>
      if env.policy = .enforce then
        .error (.error s!"PRICE_UNAVAILABLE: cannot check sponsorship — {detail}")
      else .ok ()
    match answer with
    | none => unavailable "no price source configured"
    | some answer =>
      if 0 < answer.unavailable.length then
        let detail := answer.detail.getD "no answer"
        unavailable (s!"{detail} ({answer.unavailable.length} of {colors.length} color(s): " ++
          String.intercalate ", " answer.unavailable ++ ")")
      else
        match evaluateSponsorship legs answer.prices answer.discount with
        | .error message => .error (.thrown message)
        | .ok verdict =>
          match verdict.verdict with
          | .unpriced =>
            let colorList := String.intercalate ", " verdict.unpriced
            if env.unpriced = .reject then
              .error (.error s!"UNPRICED_TOKEN: no market price for {colorList}")
            else .ok ()
          | .notSponsored =>
            if env.policy = .enforce then .error (.notSponsored verdict answer.discount)
            else .ok ()
          | .sponsored => .ok ()

/-! ## The batcher -/

/-- A call of `validateOffer` that waits for its prices. -/
structure PendingCall where
  input : String
  validation : OfferValidation

structure Batcher where
  published : DedupStore := {}
  pending : List PendingCall := []
  /-- The inputs that passed and are not yet submitted. -/
  queued : List String := []
  /-- The hash of every offer that was submitted, in order. -/
  submissions : List String := []

inductive BatcherOp
  /-- `validateOffer` is called. -/
  | call (input : String) (tblock : Int)
  /-- The prices of a waiting call arrive. -/
  | answer (index : Nat) (prices : Option LookupAnswer)
  /-- `submitBatch` returns for a queued input. -/
  | submitted (index : Nat)
  /-- `submitBatch` throws for a queued input, which stays queued. -/
  | failed (index : Nat)
  /-- A queued input is given up. -/
  | abandoned (index : Nat)

namespace Batcher

/-- The input of a waiting call that passes with these prices. -/
def accepts (env : BatcherEnv) (batcher : Batcher) (index : Nat) (prices : Option LookupAnswer) :
    Option String :=
  match batcher.pending[index]? with
  | none => none
  | some call =>
    match checkForCelestiaSponsorship env ⟨call.validation.gives, call.validation.wants⟩ prices with
    | .ok () => some call.input
    | .error _ => none

def step (env : BatcherEnv) (batcher : Batcher) : BatcherOp → Batcher
  | .call input tblock =>
    match validateOffer env batcher.published tblock input with
    | .error _ => batcher
    | .ok validation => { batcher with pending := batcher.pending ++ [⟨input, validation⟩] }
  | .answer index prices =>
    { batcher with
      pending := batcher.pending.eraseIdx index
      queued := batcher.queued ++ (batcher.accepts env index prices).toList }
  | .submitted index =>
    -- `buildBatchData` throws on an input that does not decode
    match batcher.queued[index]?.bind env.hashOf with
    | none => batcher
    | some hash =>
      { batcher with
        published := batcher.published.add hash
        queued := batcher.queued.eraseIdx index
        submissions := batcher.submissions ++ [hash] }
  | .failed _ => batcher
  | .abandoned index => { batcher with queued := batcher.queued.eraseIdx index }

def run (env : BatcherEnv) (ops : List BatcherOp) : Batcher := ops.foldl (step env) {}

/-! ## Offers that pass -/

/-- The offer is neither published nor queued. -/
def Unpaid (env : BatcherEnv) (batcher : Batcher) (hash : String) : Prop :=
  hash ∉ batcher.published.seen ∧ hash ∉ batcher.queued.filterMap env.hashOf

/-- Nothing passes in this step but an offer that is neither published nor queued. -/
def Fresh (env : BatcherEnv) (batcher : Batcher) : BatcherOp → Prop
  | .answer index prices => ∀ input ∈ batcher.accepts env index prices, ∀ hash ∈ env.hashOf input,
    batcher.Unpaid env hash
  | _ => True

/-- Every step of the run is fresh. -/
def FreshRun (env : BatcherEnv) : Batcher → List BatcherOp → Prop
  | _, [] => True
  | batcher, op :: ops => batcher.Fresh env op ∧ FreshRun env (batcher.step env op) ops

/-- What is submitted and what is queued are all different offers, and the store holds what is
submitted. -/
structure Once (env : BatcherEnv) (batcher : Batcher) : Prop where
  distinct : (batcher.submissions ++ batcher.queued.filterMap env.hashOf).Nodup
  seen : batcher.published.seen = batcher.submissions

variable {env : BatcherEnv} {batcher : Batcher}

theorem step_maxEntries (op : BatcherOp) :
    (batcher.step env op).published.maxEntries = batcher.published.maxEntries := by
  unfold step
  split
  · split <;> rfl
  · rfl
  · split
    · rfl
    · unfold DedupStore.add
      split <;> rfl
  · rfl
  · rfl

theorem submissions_length_step (op : BatcherOp) :
    batcher.submissions.length ≤ (batcher.step env op).submissions.length := by
  unfold step
  split
  · split <;> exact le_rfl
  · exact le_rfl
  · split
    · exact le_rfl
    · rw [List.length_append]
      exact Nat.le_add_right _ _
  · exact le_rfl
  · exact le_rfl

/-- **One step** that stays below the capacity keeps the offers apart. -/
theorem Once.step (h : batcher.Once env) {op : BatcherOp} (hfresh : batcher.Fresh env op)
    (hroom : (batcher.step env op).submissions.length ≤ batcher.published.maxEntries) :
    (batcher.step env op).Once env := by
  cases op with
  | call input tblock =>
    unfold Batcher.step
    simp only
    split
    · exact h
    · exact ⟨h.distinct, h.seen⟩
  | answer index prices =>
    refine ⟨?_, h.seen⟩
    show (batcher.submissions ++ (batcher.queued ++
      (batcher.accepts env index prices).toList).filterMap env.hashOf).Nodup
    rw [List.filterMap_append, ← List.append_assoc]
    cases haccepts : batcher.accepts env index prices with
    | none => simpa using h.distinct
    | some input =>
      cases hhash : env.hashOf input with
      | none => simpa [hhash] using h.distinct
      | some hash =>
        obtain ⟨hunseen, hunqueued⟩ := hfresh input haccepts hash hhash
        rw [h.seen] at hunseen
        simp only [Option.toList_some, List.filterMap_cons, hhash, List.filterMap_nil]
        refine List.nodup_append.mpr ⟨h.distinct, List.nodup_singleton hash,
          fun paid hpaid other hother => ?_⟩
        rw [List.mem_singleton.mp hother]
        rintro rfl
        exact (List.mem_append.mp hpaid).elim hunseen hunqueued
  | submitted index =>
    unfold Batcher.step at hroom ⊢
    simp only at hroom ⊢
    split at hroom
    · exact h
    · rename_i hash hsome
      obtain ⟨input, hinput, hhash⟩ := Option.bind_eq_some_iff.mp hsome
      obtain ⟨hlt, hget⟩ := List.getElem?_eq_some_iff.mp hinput
      -- the queue is the submitted input and what is left of it
      have hqueue : (hash :: (batcher.queued.eraseIdx index).filterMap env.hashOf).Perm
          (batcher.queued.filterMap env.hashOf) := by
        have hperm := (List.getElem_cons_eraseIdx_perm hlt).filterMap env.hashOf
        rwa [hget, List.filterMap_cons, hhash] at hperm
      have hdistinct : ((batcher.submissions ++ [hash]) ++
          (batcher.queued.eraseIdx index).filterMap env.hashOf).Nodup := by
        rw [List.append_assoc, List.singleton_append]
        exact ((hqueue.append_left batcher.submissions).nodup_iff).mpr h.distinct
      refine ⟨hdistinct, ?_⟩
      have hunseen : hash ∉ batcher.published.seen := by
        rw [h.seen]
        exact List.disjoint_of_nodup_append (hdistinct.sublist (List.sublist_append_left _ _))
          |>.symm (List.mem_singleton_self hash)
      rw [List.length_append, List.length_singleton, ← h.seen] at hroom
      unfold DedupStore.add DedupStore.has
      rw [if_neg (by simpa using hunseen), if_neg (by omega)]
      exact congrArg (· ++ [hash]) h.seen
  | failed index => exact h
  | abandoned index =>
    refine ⟨h.distinct.sublist ?_, h.seen⟩
    exact ((List.eraseIdx_sublist batcher.queued index).filterMap env.hashOf).append_left _

theorem submissions_length_run (ops : List BatcherOp) :
    batcher.submissions.length ≤ (ops.foldl (Batcher.step env) batcher).submissions.length := by
  induction ops generalizing batcher with
  | nil => exact le_rfl
  | cons op ops ih => exact (submissions_length_step op).trans ih

/-- **A fresh run** keeps the offers apart while the store has room. -/
theorem once_run (ops : List BatcherOp) (h : batcher.Once env) (hfresh : FreshRun env batcher ops)
    (hroom : (ops.foldl (Batcher.step env) batcher).submissions.length ≤
      batcher.published.maxEntries) : (ops.foldl (Batcher.step env) batcher).Once env := by
  induction ops generalizing batcher with
  | nil => exact h
  | cons op ops ih =>
    refine ih (h.step hfresh.1 ((submissions_length_run ops).trans hroom)) hfresh.2 ?_
    rw [step_maxEntries]
    exact hroom

theorem freshRun_append {ops more : List BatcherOp} :
    FreshRun env batcher (ops ++ more) ↔
      FreshRun env batcher ops ∧ FreshRun env (ops.foldl (Batcher.step env) batcher) more := by
  induction ops generalizing batcher with
  | nil => exact ⟨fun h => ⟨trivial, h⟩, fun h => h.2⟩
  | cons op ops ih =>
    rw [List.cons_append]
    exact ⟨fun h => ⟨⟨h.1, (ih.mp h.2).1⟩, (ih.mp h.2).2⟩, fun h => ⟨h.1.1, ih.mpr ⟨h.1.2, h.2⟩⟩⟩

/-! ## Offers that pass a second time -/

theorem DedupStore.mem_of_mem_add {store : DedupStore} {hash other : String}
    (h : other ∈ (store.add hash).seen) : other ∈ store.seen ∨ other = hash := by
  unfold DedupStore.add at h
  split at h
  · exact .inl h
  · refine (List.mem_append.mp h).imp (fun h => ?_) List.mem_singleton.mp
    split at h
    · exact List.mem_of_mem_drop h
    · exact h

/-- What is published was submitted. -/
theorem seen_subset_step (h : batcher.published.seen ⊆ batcher.submissions) (op : BatcherOp) :
    (batcher.step env op).published.seen ⊆ (batcher.step env op).submissions := by
  unfold step
  split
  · split <;> exact h
  · exact h
  · split
    · exact h
    · intro hash hseen
      rw [List.mem_append, List.mem_singleton]
      exact (DedupStore.mem_of_mem_add hseen).imp_left (h ·)
  · exact h
  · exact h

theorem seen_subset_run (ops : List BatcherOp) :
    (run env ops).published.seen ⊆ (run env ops).submissions := by
  unfold run
  induction ops using List.reverseRecOn with
  | nil => exact List.nil_subset _
  | append_singleton ops op ih =>
    rw [List.foldl_append]
    exact seen_subset_step ih op

theorem submissions_submitted {index : Nat} {input hash : String}
    (hinput : batcher.queued[index]? = some input) (hhash : env.hashOf input = some hash) :
    (batcher.step env (.submitted index)).submissions = batcher.submissions ++ [hash] ∧
      (batcher.step env (.submitted index)).queued = batcher.queued.eraseIdx index := by
  unfold step
  simp only [hinput, Option.bind_some, hhash, and_self]

/-- **A stale offer** that passes may be paid for twice: the step that lets it pass is followed by
steps that submit it, and what was queued of it. -/
theorem twice_of_stale (hseen : batcher.published.seen ⊆ batcher.submissions) {op : BatcherOp}
    (hstale : ¬ batcher.Fresh env op) :
    ∃ more, ¬ ((op :: more).foldl (step env) batcher).submissions.Nodup := by
  cases op with
  | answer index prices =>
    unfold Fresh at hstale
    push Not at hstale
    obtain ⟨input, haccepts, hash, hhash, hpaid⟩ := hstale
    set passed := batcher.step env (.answer index prices) with hpassed
    have hqueued : passed.queued = batcher.queued ++ [input] := by
      show batcher.queued ++ (batcher.accepts env index prices).toList = _
      rw [Option.mem_def.mp haccepts]
      rfl
    -- the input just queued is the last one
    have hlast : passed.queued[batcher.queued.length]? = some input := by
      rw [hqueued, List.getElem?_concat_length]
    obtain ⟨hsubmissions, hrest⟩ := submissions_submitted hlast hhash
    rw [hqueued, List.eraseIdx_append_of_length_le le_rfl, Nat.sub_self, List.eraseIdx_zero,
      List.tail_cons, List.append_nil] at hrest
    have hsubmitted : passed.submissions = batcher.submissions := rfl
    by_cases hpublished : hash ∈ batcher.published.seen
    · refine ⟨[.submitted batcher.queued.length], fun hnodup => ?_⟩
      rw [List.foldl_cons, List.foldl_cons, List.foldl_nil, ← hpassed, hsubmissions,
        hsubmitted] at hnodup
      exact (List.nodup_append.mp hnodup).2.2 hash (hseen hpublished) hash
        (List.mem_singleton_self hash) rfl
    · have hmem : hash ∈ batcher.queued.filterMap env.hashOf := by
        unfold Unpaid at hpaid
        push Not at hpaid
        exact hpaid hpublished
      obtain ⟨other, hother, hotherHash⟩ := List.mem_filterMap.mp hmem
      obtain ⟨i, hi⟩ := List.mem_iff_getElem?.mp hother
      rw [← hrest] at hi
      obtain ⟨htwice, -⟩ := submissions_submitted hi hotherHash
      refine ⟨[.submitted batcher.queued.length, .submitted i], fun hnodup => ?_⟩
      rw [List.foldl_cons, List.foldl_cons, List.foldl_cons, List.foldl_nil, ← hpassed, htwice,
        hsubmissions] at hnodup
      exact (List.nodup_append.mp hnodup).2.2 hash (by simp) hash (List.mem_singleton_self hash) rfl
  | call input tblock => exact absurd trivial hstale
  | submitted index => exact absurd trivial hstale
  | failed index => exact absurd trivial hstale
  | abandoned index => exact absurd trivial hstale

/-- **The batcher pays once** for every offer, in a run where no offer passes while it is queued or
published, as long as its store has room; any other run can go on to pay twice. -/
theorem pays_once_when_fresh (env : BatcherEnv) (ops : List BatcherOp) :
    (FreshRun env {} ops → (run env ops).submissions.length ≤ 100000 →
      (run env ops).submissions.Nodup) ∧
    (¬ FreshRun env {} ops → ∃ before op after more, ops = before ++ op :: after ∧
      ¬ (run env (before ++ op :: more)).submissions.Nodup) := by
  constructor
  · intro hfresh hroom
    have hstart : Once env {} := ⟨List.nodup_nil, rfl⟩
    exact (List.nodup_append.mp (once_run ops hstart hfresh hroom).distinct).1
  · intro hstale
    obtain ⟨before, op, after, rfl, hop⟩ : ∃ before op after, ops = before ++ op :: after ∧
        ¬ (run env before).Fresh env op := by
      by_contra hall
      push Not at hall
      refine hstale ?_
      clear hstale
      induction ops using List.reverseRecOn with
      | nil => trivial
      | append_singleton ops op ih =>
        refine freshRun_append.mpr ⟨ih fun before other after hops => ?_, ?_, trivial⟩
        · exact hall before other (after ++ [op]) (by rw [hops, List.append_assoc, List.cons_append])
        · exact hall ops op [] rfl
    obtain ⟨more, htwice⟩ := twice_of_stale (seen_subset_run before) hop
    refine ⟨before, op, after, more, rfl, ?_⟩
    unfold run
    rw [List.foldl_append]
    exact htwice

end Batcher

namespace RuledOffer

/-- A batcher that asks for no sponsorship. -/
def batcher : BatcherEnv := ⟨fun _ => none, ledger, decode, 131072, .off, .allow⟩

/-- The offer is sent twice, and both calls pass before it is submitted. -/
def replay : List BatcherOp :=
  [.call blob 1000, .call blob 1000, .answer 0 none, .answer 0 none, .submitted 0, .submitted 0]

end RuledOffer

open RuledOffer in
/-- The offer is sent and submitted, and sent again: it is paid for once. -/
theorem pays_once_when_fresh_sent :
    (Batcher.run batcher [.call blob 1000, .answer 0 none, .submitted 0,
      .call blob 1000]).submissions = ["01"] ∧
    (Batcher.run batcher [.call blob 1000, .answer 0 none, .submitted 0,
      .call blob 1000]).submissions.Nodup := by
  have hempty : (Batcher.run batcher [.call blob 1000]).published.seen = [] ∧
      (Batcher.run batcher [.call blob 1000]).queued = [] := by
    decide +kernel
  have honce : (Batcher.run batcher [.call blob 1000, .answer 0 none, .submitted 0,
      .call blob 1000]).submissions = ["01"] := by
    decide +kernel
  refine ⟨honce, (Batcher.pays_once_when_fresh batcher _).1 ⟨trivial, ?_, trivial, trivial, trivial⟩
    (by rw [honce]; decide)⟩
  intro input _ hash _
  constructor
  · rw [show (Batcher.step batcher {} (.call blob 1000)).published.seen = [] from hempty.1]
    exact List.not_mem_nil
  · rw [show (Batcher.step batcher {} (.call blob 1000)).queued = [] from hempty.2]
    exact List.not_mem_nil

open RuledOffer in
/-- A replay that arrives before the first submission returns is paid for. -/
theorem replay_paid_twice :
    (Batcher.run batcher replay).submissions = ["01", "01"] ∧
      ¬ (Batcher.run batcher replay).submissions.Nodup := by
  have h : (Batcher.run batcher replay).submissions = ["01", "01"] := by decide +kernel
  exact ⟨h, by rw [h]; decide⟩

end ZswapKernel
