import Mathlib.Data.List.Perm.Basic
import ZswapKernel.Lib.Program
import ZswapKernel.PriceFeed.Coingecko

/-!
# One refresh cycle

`runCycle` (`cycle.ts`): the ids in chunks, one request each, a write for each quote, a stop on 429.
The provider's replies and the answers of the database are parameters, any at all. `requests` is the
history of what each request added; the log lines and the waits are left out.

* `flatten_chunkIds`: the chunks are the ids, in order.
* `writeQuotes_spec`, `runChunk_spec`, `runChunks_spec`: what a batch of writes, a chunk and the
  chunks add.
* `cycle_isolated_iff`: the cycle accounts for every id and fails none for another's entry, exactly
  when no requested chunk has a good entry beside an overflowing timestamp and no query rejects.
-/

namespace ZswapKernel

structure CycleFailure where
  assetId : String
  kind : String
  message : String
  deriving DecidableEq, Repr

/-- What the database does with a query: it rejects, or gives rows. -/
inductive WriteAnswer
  | rejected (message : String)
  | rows (count : Nat)
  deriving DecidableEq, Repr

def WriteAnswer.rejects : WriteAnswer → Bool
  | .rejected _ => true
  | .rows _ => false

/-- What one request added. -/
structure RequestRecord where
  chunk : List String
  reply : ProviderReply
  updated : List String
  failed : List CycleFailure

structure CycleState where
  updated : List String := []
  failed : List CycleFailure := []
  rateLimit : RateLimit := {}
  stoppedOnRateLimit : Bool := false
  requestedIds : Nat := 0
  /-- The upserts sent so far. -/
  writes : List AssetQuote := []
  requests : List RequestRecord := []

def defaultBatchSize : Nat := 50

/-- The first `step` ids and the rest, `fuel` times. -/
def chunksOf (step : Nat) : Nat → List String → List (List String)
  | 0, _ => []
  | fuel + 1, assetIds =>
    if assetIds = [] then [] else assetIds.take step :: chunksOf step fuel (assetIds.drop step)

/-- `chunkIds`. -/
def chunkIds (assetIds : List String) (size : Double) : List (List String) :=
  let step := match size with
    | .finite value => if value.den = 1 ∧ 0 < value then value.num.toNat else defaultBatchSize
    | _ => defaultBatchSize
  chunksOf step assetIds.length assetIds

def FetchError.message : FetchError → String
  | .coinGecko message _ _ _ _ => message
  | .other message => message

def FetchError.kind : FetchError → String
  | .coinGecko _ kind _ _ _ => kind.text
  | .other _ => "unknown"

def FetchError.rateLimit : FetchError → Option RateLimit
  | .coinGecko _ _ _ _ rateLimit => rateLimit
  | .other _ => none

/-- The loop over the quotes of a batch. `answers k` is the answer to the k-th upsert. -/
def writeQuotes (answers : Nat → WriteAnswer) :
    List AssetQuote → CycleState → Except String CycleState
  | [], state => .ok state
  | quote :: quotes, state =>
    let sent := { state with writes := state.writes ++ [quote] }
    match answers state.writes.length with
    | .rejected message => .error message
    | .rows 0 =>
      let failure := ⟨quote.assetId, "not_written", "the database wrote no row for this asset"⟩
      writeQuotes answers quotes { sent with failed := state.failed ++ [failure] }
    | .rows (_ + 1) =>
      writeQuotes answers quotes { sent with updated := state.updated ++ [quote.assetId] }

/-- One request and its writes. -/
def runChunk (answers : Nat → WriteAnswer) (chunk : List String) (reply : ProviderReply)
    (state : CycleState) : Except String CycleState :=
  let requested := { state with requestedIds := state.requestedIds + chunk.length }
  match fetchAssetPrices chunk reply with
  | .error error =>
    .ok { requested with
      rateLimit := error.rateLimit.getD state.rateLimit
      failed := state.failed ++ chunk.map fun assetId => ⟨assetId, error.kind, error.message⟩
      stoppedOnRateLimit := decide (error.kind = "rate_limit") }
  | .ok batch =>
    writeQuotes answers batch.quotes { requested with
      rateLimit := batch.rateLimit
      failed := state.failed ++
        batch.failures.map fun failure => ⟨failure.assetId, failure.kind.text, failure.message⟩ }

/-- The state with what the request added in its history. -/
def CycleState.record (state before : CycleState) (chunk : List String) (reply : ProviderReply) :
    CycleState :=
  { state with requests := before.requests ++
      [⟨chunk, reply, state.updated.drop before.updated.length,
        state.failed.drop before.failed.length⟩] }

/-- The loop over the chunks. -/
def runChunks (answers : Nat → WriteAnswer) :
    List (List String × ProviderReply) → CycleState → Except String CycleState
  | [], state => .ok state
  | (chunk, reply) :: rest, state => do
    let next ← runChunk answers chunk reply state
    let recorded := next.record state chunk reply
    if recorded.stoppedOnRateLimit then .ok recorded else runChunks answers rest recorded

structure CycleDeps where
  /-- The provider's reply to the k-th request. -/
  replies : Nat → ProviderReply
  answers : Nat → WriteAnswer
  /-- The answer to the status row's upsert. -/
  statusAnswer : WriteAnswer
  /-- `now().toISOString()`. -/
  runAt : String

structure CycleOptions where
  assetIds : List String
  batchSize : Option Double := none
  provider : String := "coingecko"

/-- The row of `price_feed_status`. -/
structure StatusRow where
  provider : String
  lastRunAt : String
  lastOkAt : Option String
  lastError : Option String
  deriving DecidableEq, Repr

structure CycleResult where
  updated : List String
  failed : List CycleFailure
  stoppedOnRateLimit : Bool
  notRequested : List String
  rateLimit : RateLimit
  error : Option String
  status : StatusRow
  writes : List AssetQuote
  requests : List RequestRecord

/-- The error line of a cycle. -/
def cycleError (failed : List CycleFailure) (notRequested : List String) : Option String :=
  if failed = [] then none
  else
    let failures := String.intercalate "; " (failed.map fun f => s!"{f.assetId}: {f.message}")
    let rest := String.intercalate ", " notRequested
    some (failures ++ if notRequested = [] then "" else s!" (not requested: {rest})")

/-- The requests that a cycle would make: the chunks with the provider's replies. -/
def exchangesOf (deps : CycleDeps) (options : CycleOptions) :
    List (List String × ProviderReply) :=
  (chunkIds options.assetIds (options.batchSize.getD (.finite defaultBatchSize))).zipIdx.map
    fun (chunk, index) => (chunk, deps.replies index)

/-- `runCycle`. -/
def runCycle (deps : CycleDeps) (options : CycleOptions) : Except String CycleResult := do
  let state ← runChunks deps.answers (exchangesOf deps options) {}
  let notRequested :=
    if state.stoppedOnRateLimit then options.assetIds.drop state.requestedIds else []
  let error := cycleError state.failed notRequested
  let status : StatusRow :=
    ⟨options.provider, deps.runAt, if error.isNone then some deps.runAt else none, error⟩
  match deps.statusAnswer with
  | .rejected message => .error message
  | .rows _ => .ok ⟨state.updated, state.failed, state.stoppedOnRateLimit, notRequested,
      state.rateLimit, error, status, state.writes, state.requests⟩

/-! ## Chunks -/

theorem flatten_chunksOf {step : Nat} (hstep : 0 < step) :
    ∀ (fuel : Nat) (assetIds : List String), assetIds.length ≤ fuel →
      (chunksOf step fuel assetIds).flatten = assetIds ∧
        ∀ chunk ∈ chunksOf step fuel assetIds, chunk ≠ []
  | 0, assetIds, h => by
    rw [List.eq_nil_of_length_eq_zero (Nat.le_zero.1 h)]
    exact ⟨rfl, nofun⟩
  | fuel + 1, assetIds, h => by
    unfold chunksOf
    split
    · rename_i hnil
      exact ⟨hnil.symm, nofun⟩
    · rename_i hne
      have hshort : (assetIds.drop step).length ≤ fuel := by
        rw [List.length_drop]
        omega
      obtain ⟨hflatten, hchunks⟩ := flatten_chunksOf hstep fuel _ hshort
      refine ⟨?_, fun chunk hchunk => ?_⟩
      · rw [List.flatten_cons, hflatten, List.take_append_drop]
      · rcases List.mem_cons.1 hchunk with rfl | hchunk
        · rw [Ne, List.take_eq_nil_iff]
          exact fun hnil => hnil.elim hstep.ne' hne
        · exact hchunks chunk hchunk

/-- **The chunks are the ids**, in order, and none is empty. -/
theorem flatten_chunkIds (assetIds : List String) (size : Double) :
    (chunkIds assetIds size).flatten = assetIds ∧ ∀ chunk ∈ chunkIds assetIds size, chunk ≠ [] := by
  unfold chunkIds
  refine flatten_chunksOf ?_ _ _ le_rfl
  split
  · split
    · rename_i value h
      have : 0 < value.num := Rat.num_pos.2 h.2
      omega
    · decide
  · decide

theorem exchangesOf_chunks (deps : CycleDeps) (options : CycleOptions) :
    (exchangesOf deps options).flatMap (·.1) = options.assetIds ∧
      ∀ exchange ∈ exchangesOf deps options, exchange.1 ≠ [] := by
  obtain ⟨hflatten, hchunks⟩ := flatten_chunkIds options.assetIds
    (options.batchSize.getD (.finite defaultBatchSize))
  have hfirst : (exchangesOf deps options).map (·.1) =
      chunkIds options.assetIds (options.batchSize.getD (.finite defaultBatchSize)) := by
    unfold exchangesOf
    rw [List.map_map]
    exact List.zipIdx_map_fst 0 _
  refine ⟨?_, fun exchange hexchange => hchunks _ ?_⟩
  · rw [List.flatMap_def, hfirst, hflatten]
  · rw [← hfirst]
    exact List.mem_map_of_mem hexchange

/-! ## What a request adds -/

/-- The fields of a 2xx body that is an object. -/
def ProviderReply.objectBody : ProviderReply → Option (List (String × Json))
  | .answered reply =>
    if 200 ≤ reply.status ∧ reply.status ≤ 299 then
      match reply.body with
      | some (.object fields) => some fields
      | _ => none
    else none
  | .failed _ => none

/-- HTTP 429. -/
def ProviderReply.limited : ProviderReply → Bool
  | .answered reply => decide (reply.status = 429)
  | .failed _ => false

/-- Some entry of the chunk has a timestamp that overflows. -/
def overflowing (fields : List (String × Json)) (chunk : List String) : Bool :=
  chunk.any fun assetId => (entryOf fields assetId).overflows

/-- The ids that a request writes. -/
def wanted (chunk : List String) (reply : ProviderReply) : List String :=
  match reply.objectBody with
  | some fields =>
    if overflowing fields chunk then []
    else chunk.filter fun assetId => (entryOf fields assetId).good
  | none => []

/-- The failure has its cause in the id's own entry, or in its own write. -/
def OwnCause (answers : Nat → WriteAnswer) (fields : List (String × Json)) (chunk : List String)
    (writes : List AssetQuote) (failure : CycleFailure) : Prop :=
  failure.assetId ∈ chunk ∧ ((entryOf fields failure.assetId).good = false ∨
    failure.kind = "not_written" ∧ ∃ k quote, writes[k]? = some quote ∧
      quote.assetId = failure.assetId ∧ answers k = .rows 0)

theorem kind_limited (message : String) (kind : CoinGeckoErrorKind) (assetIds : List String)
    (status : Option Nat) (rateLimit : Option RateLimit) :
    decide ((FetchError.coinGecko message kind assetIds status rateLimit).kind = "rate_limit") =
      decide (kind = .rateLimit) := by
  change decide (kind.text = "rate_limit") = _
  cases kind <;> decide

/-- A request that is answered with anything but an object fails as a whole. -/
theorem fetchAssetPrices_request {chunk : List String} (hne : chunk ≠ []) {reply : ProviderReply}
    (h : reply.objectBody = none) : ∃ error, fetchAssetPrices chunk reply = .error error ∧
      decide (error.kind = "rate_limit") = reply.limited := by
  unfold fetchAssetPrices
  rw [if_neg hne]
  cases reply with
  | failed reason => exact ⟨_, rfl, kind_limited _ _ _ _ _⟩
  | answered reply =>
    unfold ProviderReply.objectBody at h
    unfold ProviderReply.limited
    simp only at h ⊢
    by_cases h429 : reply.status = 429
    · rw [if_pos h429]
      exact ⟨_, rfl, (kind_limited _ _ _ _ _).trans (decide_eq_true h429).symm⟩
    rw [if_neg h429, decide_eq_false h429]
    by_cases hok : 200 ≤ reply.status ∧ reply.status ≤ 299
    · rw [if_neg (not_not.2 hok)]
      rw [if_pos hok] at h
      cases hbody : reply.body with
      | none => exact ⟨_, rfl, kind_limited _ _ _ _ _⟩
      | some body =>
        cases body with
        | object fields => rw [hbody] at h; cases h
        | _ => exact ⟨_, rfl, kind_limited _ _ _ _ _⟩
    · rw [if_pos hok]
      exact ⟨_, rfl, kind_limited _ _ _ _ _⟩

theorem fetchAssetPrices_object {chunk : List String} (hne : chunk ≠ []) {reply : ProviderReply}
    {fields : List (String × Json)} (h : reply.objectBody = some fields) :
    reply.limited = false ∧ ∃ rateLimit, fetchAssetPrices chunk reply =
      match readEntries rateLimit fields chunk ⟨[], [], rateLimit⟩ with
      | .ok batch => .ok batch
      | .error message => .error (.other message) := by
  unfold fetchAssetPrices
  rw [if_neg hne]
  cases reply with
  | failed reason => cases h
  | answered reply =>
    unfold ProviderReply.objectBody at h
    unfold ProviderReply.limited
    simp only at h ⊢
    split at h
    · rename_i hok
      have h429 : reply.status ≠ 429 := by omega
      rw [if_neg h429, decide_eq_false h429, if_neg (not_not.2 hok)]
      cases hbody : reply.body with
      | none => rw [hbody] at h; cases h
      | some body =>
        cases body with
        | object own =>
          rw [hbody] at h
          cases h
          exact ⟨rfl, _, rfl⟩
        | _ => rw [hbody] at h; cases h
    · cases h

/-- **The writes of a batch**: they go through unless one rejects, and each quote is updated, or
fails because its own write gave no row. -/
theorem writeQuotes_spec (answers : Nat → WriteAnswer) :
    ∀ (quotes : List AssetQuote) (state : CycleState),
      ((∃ state', writeQuotes answers quotes state = .ok state') ↔
        ∀ j < quotes.length, (answers (state.writes.length + j)).rejects = false) ∧
      ∀ state', writeQuotes answers quotes state = .ok state' → ∃ updated failed,
        state' = { state with
          updated := state.updated ++ updated, failed := state.failed ++ failed
          writes := state.writes ++ quotes } ∧
        (updated ++ failed.map (·.assetId)).Perm (quotes.map (·.assetId)) ∧
        ∀ failure ∈ failed, failure.kind = "not_written" ∧ ∃ k quote,
          (state.writes ++ quotes)[k]? = some quote ∧ quote.assetId = failure.assetId ∧
            answers k = .rows 0
  | [], state => by
    refine ⟨⟨fun _ j hj => absurd hj (Nat.not_lt_zero j), fun _ => ⟨_, rfl⟩⟩, fun state' h => ?_⟩
    obtain rfl := Except.ok.inj h
    exact ⟨[], [], by simp, List.Perm.refl _, nofun⟩
  | quote :: quotes, state => by
    have hfirst : (∀ j < (quote :: quotes).length,
        (answers (state.writes.length + j)).rejects = false) ↔
        (answers state.writes.length).rejects = false ∧ ∀ j < quotes.length,
          (answers ((state.writes ++ [quote]).length + j)).rejects = false := by
      rw [List.length_cons, Nat.forall_lt_succ_left', List.length_append, List.length_singleton]
      simp only [Nat.add_zero, Nat.add_assoc, Nat.add_comm 1]
    have hwrites : ∀ (k : Nat) (q : AssetQuote),
        (state.writes ++ [quote] ++ quotes)[k]? = some q ↔
          (state.writes ++ quote :: quotes)[k]? = some q := by
      intro k q
      rw [List.append_assoc, List.singleton_append]
    rw [hfirst]
    unfold writeQuotes
    cases hanswer : answers state.writes.length with
    | rejected message =>
      refine ⟨⟨nofun, fun h => absurd h.1 nofun⟩, nofun⟩
    | rows count =>
      cases count with
      | zero =>
        obtain ⟨hiff, hspec⟩ := writeQuotes_spec answers quotes { state with
          writes := state.writes ++ [quote]
          failed := state.failed ++
            [⟨quote.assetId, "not_written", "the database wrote no row for this asset"⟩] }
        refine ⟨hiff.trans ⟨fun h => ⟨rfl, h⟩, fun h => h.2⟩, fun state' h => ?_⟩
        obtain ⟨updated, failed, rfl, hperm, hown⟩ := hspec state' h
        refine ⟨updated, ⟨quote.assetId, "not_written",
          "the database wrote no row for this asset"⟩ :: failed, ?_, ?_, fun failure hfailure => ?_⟩
        · simp only [List.append_assoc, List.singleton_append]
        · rw [List.map_cons, List.map_cons]
          exact List.perm_middle.trans (hperm.cons _)
        · rcases List.mem_cons.1 hfailure with rfl | hfailure
          · exact ⟨rfl, state.writes.length, quote, by simp, rfl, hanswer⟩
          · obtain ⟨hkind, k, own, hk, hid, hrows⟩ := hown failure hfailure
            exact ⟨hkind, k, own, (hwrites k own).1 hk, hid, hrows⟩
      | succ count =>
        obtain ⟨hiff, hspec⟩ := writeQuotes_spec answers quotes { state with
          writes := state.writes ++ [quote], updated := state.updated ++ [quote.assetId] }
        refine ⟨hiff.trans ⟨fun h => ⟨rfl, h⟩, fun h => h.2⟩, fun state' h => ?_⟩
        obtain ⟨updated, failed, rfl, hperm, hown⟩ := hspec state' h
        refine ⟨quote.assetId :: updated, failed, ?_, hperm.cons _, fun failure hfailure => ?_⟩
        · simp only [List.append_assoc, List.singleton_append]
        · obtain ⟨hkind, k, own, hk, hid, hrows⟩ := hown failure hfailure
          exact ⟨hkind, k, own, (hwrites k own).1 hk, hid, hrows⟩

/-- No good entry of the chunk stands beside one whose timestamp overflows. -/
def Contained (chunk : List String) (reply : ProviderReply) : Prop :=
  ∀ fields, reply.objectBody = some fields → overflowing fields chunk = true →
    ∀ assetId ∈ chunk, (entryOf fields assetId).good = false

/-- Every failure of the request has its own cause. -/
def RequestRecord.Isolated (answers : Nat → WriteAnswer) (writes : List AssetQuote)
    (record : RequestRecord) : Prop :=
  ∀ fields, record.reply.objectBody = some fields → ∀ failure ∈ record.failed,
    OwnCause answers fields record.chunk writes failure

theorem OwnCause.mono {answers : Nat → WriteAnswer} {fields : List (String × Json)}
    {chunk : List String} {writes later : List AssetQuote} {failure : CycleFailure}
    (h : OwnCause answers fields chunk writes failure) (hlater : writes <+: later) :
    OwnCause answers fields chunk later failure := by
  obtain ⟨hmem, hcause⟩ := h
  refine ⟨hmem, hcause.imp_right fun ⟨hkind, k, quote, hk, hown⟩ => ⟨hkind, k, quote, ?_, hown⟩⟩
  obtain ⟨rest, rfl⟩ := hlater
  obtain ⟨hlt, -⟩ := List.getElem?_eq_some_iff.1 hk
  rw [List.getElem?_append_left hlt, hk]

/-- **What one request adds.** -/
structure RequestAdds (answers : Nat → WriteAnswer) (chunk : List String) (reply : ProviderReply)
    (state state' : CycleState) (updated : List String) (failed : List CycleFailure)
    (quotes : List AssetQuote) : Prop where
  allUpdated : state'.updated = state.updated ++ updated
  allFailed : state'.failed = state.failed ++ failed
  allWrites : state'.writes = state.writes ++ quotes
  count : quotes.length = (wanted chunk reply).length
  requestedIds : state'.requestedIds = state.requestedIds + chunk.length
  stopped : state'.stoppedOnRateLimit = reply.limited
  requests : state'.requests = state.requests
  accounted : (updated ++ failed.map (·.assetId)).Perm chunk
  refused : reply.limited = true → failed ≠ []
  thrown : ∀ fields, reply.objectBody = some fields → overflowing fields chunk = true →
    ∃ message, failed = chunk.map fun assetId => ⟨assetId, "unknown", message⟩
  caused : ∀ fields, reply.objectBody = some fields → overflowing fields chunk = false →
    ∀ failure ∈ failed, OwnCause answers fields chunk state'.writes failure

/-- A chunk that fails as a whole. -/
theorem map_failures (chunk : List String) (kind message : String) :
    (([] : List String) ++ (chunk.map fun assetId => (⟨assetId, kind, message⟩ :
      CycleFailure)).map (·.assetId)).Perm chunk := by
  rw [List.nil_append, List.map_map]
  exact .of_eq (List.map_id chunk)

/-- **One request** goes through unless one of its writes rejects. -/
theorem runChunk_spec (answers : Nat → WriteAnswer) {chunk : List String} (hne : chunk ≠ [])
    (reply : ProviderReply) {state : CycleState} (hlive : state.stoppedOnRateLimit = false) :
    ((∃ state', runChunk answers chunk reply state = .ok state') ↔
      ∀ j < (wanted chunk reply).length,
        (answers (state.writes.length + j)).rejects = false) ∧
    ∀ state', runChunk answers chunk reply state = .ok state' → ∃ updated failed quotes,
      RequestAdds answers chunk reply state state' updated failed quotes := by
  unfold runChunk
  cases hbody : reply.objectBody with
  | none =>
    obtain ⟨error, hfetch, hlimited⟩ := fetchAssetPrices_request hne hbody
    have hwanted : wanted chunk reply = [] := by
      unfold wanted
      rw [hbody]
    rw [hfetch, hwanted]
    refine ⟨⟨fun _ j hj => absurd hj (Nat.not_lt_zero j), fun _ => ⟨_, rfl⟩⟩, fun state' h => ?_⟩
    obtain rfl := Except.ok.inj h
    refine ⟨[], _, [], (List.append_nil _).symm, rfl, (List.append_nil _).symm, ?_, rfl, hlimited,
      rfl, map_failures _ _ _, fun _ hnil => hne (List.map_eq_nil_iff.1 hnil), ?_, ?_⟩
    · rw [hwanted]
      rfl
    · intro fields hfields
      cases hbody.symm.trans hfields
    · intro fields hfields
      cases hbody.symm.trans hfields
  | some fields =>
    obtain ⟨hlimited, rateLimit, hfetch⟩ := fetchAssetPrices_object hne hbody
    cases hover : overflowing fields chunk with
    | true =>
      obtain ⟨message, hmessage⟩ := readEntries_error rateLimit fields chunk ⟨[], [], rateLimit⟩
        (by simpa [overflowing] using hover)
      have hwanted : wanted chunk reply = [] := by
        unfold wanted
        rw [hbody]
        simp only
        rw [if_pos hover]
      rw [hfetch, hmessage, hwanted]
      refine ⟨⟨fun _ j hj => absurd hj (Nat.not_lt_zero j), fun _ => ⟨_, rfl⟩⟩,
        fun state' h => ?_⟩
      obtain rfl := Except.ok.inj h
      refine ⟨[], _, [], (List.append_nil _).symm, rfl, (List.append_nil _).symm, ?_, rfl,
        hlimited.symm, rfl, map_failures _ _ _, fun _ hnil => hne (List.map_eq_nil_iff.1 hnil),
        fun _ _ _ => ⟨message, rfl⟩, ?_⟩
      · rw [hwanted]
        rfl
      · intro own hown hnone
        obtain rfl := Option.some.inj (hbody.symm.trans hown)
        rw [hover] at hnone
        cases hnone
    | false =>
      obtain ⟨quotes, failures, hread, hquotes, hperm, hown⟩ := readEntries_ok rateLimit fields
        chunk ⟨[], [], rateLimit⟩ (by simpa [overflowing] using hover)
      have hwanted : wanted chunk reply = quotes.map (·.assetId) := by
        unfold wanted
        rw [hbody, hquotes]
        simp only
        rw [if_neg (by rw [hover]; exact Bool.false_ne_true)]
      have hcount : quotes.length = (wanted chunk reply).length := by
        rw [hwanted, List.length_map]
      rw [hfetch, hread, ← hcount]
      obtain ⟨hiff, hspec⟩ := writeQuotes_spec answers quotes { state with
        requestedIds := state.requestedIds + chunk.length
        rateLimit := rateLimit
        failed := state.failed ++
          failures.map fun failure => ⟨failure.assetId, failure.kind.text, failure.message⟩ }
      refine ⟨hiff, fun state' h => ?_⟩
      obtain ⟨updated, failed, rfl, hwritten, hrows⟩ := hspec state' h
      refine ⟨updated, (failures.map fun failure =>
        ⟨failure.assetId, failure.kind.text, failure.message⟩) ++ failed, quotes, rfl,
        List.append_assoc _ _ _, rfl, hcount, rfl, hlive.trans hlimited.symm, rfl, ?_, ?_, ?_, ?_⟩
      · rw [List.map_append, List.map_map]
        refine (List.perm_append_comm.trans ?_).trans hperm
        rw [List.append_assoc]
        refine (List.Perm.append_left _ (List.perm_append_comm.trans hwritten)).trans ?_
        exact List.perm_append_comm
      · rw [hlimited]
        nofun
      · intro own hown' hyes
        obtain rfl := Option.some.inj (hbody.symm.trans hown')
        rw [hover] at hyes
        cases hyes
      · intro own hown' _ failure hfailure
        obtain rfl := Option.some.inj (hbody.symm.trans hown')
        rcases List.mem_append.1 hfailure with hfailure | hfailure
        · obtain ⟨entryFailure, hmem, rfl⟩ := List.mem_map.1 hfailure
          obtain ⟨hid, hbad⟩ := hown entryFailure hmem
          exact ⟨hid, .inl hbad⟩
        · obtain ⟨hkind, k, quote, hk, hid, hzero⟩ := hrows failure hfailure
          refine ⟨?_, .inr ⟨hkind, k, quote, hk, hid, hzero⟩⟩
          refine hperm.subset (List.mem_append_left _ (hwritten.subset ?_))
          exact List.mem_append_right _ (List.mem_map_of_mem hfailure)

/-- **The history is isolated** exactly where the chunk is contained. -/
theorem isolated_iff {answers : Nat → WriteAnswer} {chunk : List String} {reply : ProviderReply}
    {state state' : CycleState} {updated : List String} {failed : List CycleFailure}
    {quotes writes : List AssetQuote}
    (h : RequestAdds answers chunk reply state state' updated failed quotes)
    (hlater : state'.writes <+: writes) :
    (⟨chunk, reply, updated, failed⟩ : RequestRecord).Isolated answers writes ↔
      Contained chunk reply := by
  constructor
  · intro hisolated fields hbody hover assetId hid
    obtain ⟨message, rfl⟩ := h.thrown fields hbody hover
    obtain ⟨-, hgood | ⟨hkind, -⟩⟩ := hisolated fields hbody ⟨assetId, "unknown", message⟩
      (List.mem_map.2 ⟨assetId, hid, rfl⟩)
    · exact hgood
    · have hunknown : ("unknown" : String) = "not_written" := hkind
      exact absurd hunknown (by decide)
  · intro hcontained fields hbody failure hfailure
    cases hover : overflowing fields chunk with
    | true =>
      obtain ⟨message, rfl⟩ := h.thrown fields hbody hover
      obtain ⟨assetId, hid, rfl⟩ := List.mem_map.1 hfailure
      exact ⟨hid, .inl (hcontained fields hbody hover assetId hid)⟩
    | false => exact (h.caused fields hbody hover failure hfailure).mono hlater

/-! ## What a cycle adds -/

/-- The requests that a cycle makes: up to the first 429. -/
def requestedOf : List (List String × ProviderReply) → List (List String × ProviderReply)
  | [] => []
  | exchange :: rest => if exchange.2.limited then [exchange] else exchange :: requestedOf rest

/-- The ids that a cycle writes. -/
def wantedOf (exchanges : List (List String × ProviderReply)) : List String :=
  (requestedOf exchanges).flatMap fun exchange => wanted exchange.1 exchange.2

/-- **What the requests add.** -/
structure ChunksAdd (answers : Nat → WriteAnswer) (exchanges : List (List String × ProviderReply))
    (state state' : CycleState) (updated : List String) (failed : List CycleFailure)
    (quotes : List AssetQuote) (records : List RequestRecord) : Prop where
  allUpdated : state'.updated = state.updated ++ updated
  allFailed : state'.failed = state.failed ++ failed
  allWrites : state'.writes = state.writes ++ quotes
  allRequests : state'.requests = state.requests ++ records
  requestedIds : state'.requestedIds =
    state.requestedIds + ((requestedOf exchanges).flatMap (·.1)).length
  stopped : state'.stoppedOnRateLimit = exchanges.any (·.2.limited)
  accounted : (updated ++ failed.map (·.assetId)).Perm ((requestedOf exchanges).flatMap (·.1))
  refused : state'.stoppedOnRateLimit = true → failed ≠ []
  parts : failed = records.flatMap (·.failed)
  history : records.map (fun record => (record.chunk, record.reply)) = requestedOf exchanges
  isolated : ∀ writes, state'.writes <+: writes → ∀ record ∈ records,
    (record.Isolated answers writes ↔ Contained record.chunk record.reply)

/-- A request that has run, in the history. -/
theorem RequestAdds.recorded {answers : Nat → WriteAnswer} {chunk : List String}
    {reply : ProviderReply} {state state' : CycleState} {updated : List String}
    {failed : List CycleFailure} {quotes : List AssetQuote}
    (h : RequestAdds answers chunk reply state state' updated failed quotes) :
    state'.record state chunk reply =
      { state' with requests := state.requests ++ [⟨chunk, reply, updated, failed⟩] } := by
  unfold CycleState.record
  rw [h.allUpdated, h.allFailed, List.drop_left, List.drop_left]

theorem requestedOf_cons (exchange : List String × ProviderReply)
    (rest : List (List String × ProviderReply)) : requestedOf (exchange :: rest) =
      if exchange.2.limited then [exchange] else exchange :: requestedOf rest := rfl

theorem runChunks_cons (answers : Nat → WriteAnswer) (chunk : List String) (reply : ProviderReply)
    (rest : List (List String × ProviderReply)) (state : CycleState) :
    runChunks answers ((chunk, reply) :: rest) state = (do
      let next ← runChunk answers chunk reply state
      if next.stoppedOnRateLimit then .ok (next.record state chunk reply)
      else runChunks answers rest (next.record state chunk reply)) := rfl

theorem wantedOf_cons (chunk : List String) (reply : ProviderReply)
    (rest : List (List String × ProviderReply)) :
    wantedOf ((chunk, reply) :: rest) =
      wanted chunk reply ++ if reply.limited then [] else wantedOf rest := by
  unfold wantedOf
  rw [requestedOf_cons]
  cases reply.limited with
  | true =>
    simp only [if_true]
    rw [List.flatMap_cons, List.flatMap_nil]
  | false =>
    simp only [Bool.false_eq_true, if_false]
    rw [List.flatMap_cons]

theorem forall_lt_add {p : Nat → Prop} (a b : Nat) :
    (∀ j < a + b, p j) ↔ (∀ j < a, p j) ∧ ∀ j < b, p (a + j) := by
  constructor
  · intro h
    exact ⟨fun j hj => h j (by omega), fun j hj => h (a + j) (by omega)⟩
  · rintro ⟨hfirst, hrest⟩ j hj
    by_cases hja : j < a
    · exact hfirst j hja
    · obtain ⟨i, rfl⟩ := Nat.exists_eq_add_of_le (not_lt.1 hja)
      exact hrest i (by omega)

/-- **The requests of a cycle** go through unless one of their writes rejects. -/
theorem runChunks_spec (answers : Nat → WriteAnswer) :
    ∀ (exchanges : List (List String × ProviderReply)) (state : CycleState),
      (∀ exchange ∈ exchanges, exchange.1 ≠ []) → state.stoppedOnRateLimit = false →
      ((∃ state', runChunks answers exchanges state = .ok state') ↔
        ∀ j < (wantedOf exchanges).length,
          (answers (state.writes.length + j)).rejects = false) ∧
      ∀ state', runChunks answers exchanges state = .ok state' →
        ∃ updated failed quotes records,
          ChunksAdd answers exchanges state state' updated failed quotes records
  | [], state, _, hlive => by
    refine ⟨⟨fun _ j hj => absurd hj (Nat.not_lt_zero j), fun _ => ⟨_, rfl⟩⟩, fun state' h => ?_⟩
    obtain rfl := Except.ok.inj h
    refine ⟨[], [], [], [], by simp, by simp, by simp, by simp, rfl, hlive, List.Perm.refl _, ?_,
      rfl, rfl, nofun⟩
    rw [hlive]
    nofun
  | (chunk, reply) :: rest, state, hchunks, hlive => by
    have hne : chunk ≠ [] := hchunks _ List.mem_cons_self
    have hrest : ∀ exchange ∈ rest, exchange.1 ≠ [] := fun exchange hmem =>
      hchunks exchange (List.mem_cons_of_mem _ hmem)
    obtain ⟨hiff, hspec⟩ := runChunk_spec answers hne reply hlive
    rw [wantedOf_cons, List.length_append, forall_lt_add, ← hiff]
    cases hrun : runChunk answers chunk reply state with
    | error message =>
      have herror : runChunks answers ((chunk, reply) :: rest) state = .error message := by
        rw [runChunks_cons, hrun]
        rfl
      rw [herror]
      exact ⟨⟨nofun, fun h => nomatch h.1⟩, nofun⟩
    | ok next =>
      obtain ⟨updated, failed, quotes, hadds⟩ := hspec next hrun
      have hrecorded := hadds.recorded
      have hwrites : next.writes.length = state.writes.length + (wanted chunk reply).length := by
        rw [hadds.allWrites, List.length_append, hadds.count]
      have hcons : runChunks answers ((chunk, reply) :: rest) state =
          if reply.limited then .ok (next.record state chunk reply)
          else runChunks answers rest (next.record state chunk reply) := by
        rw [← hadds.stopped, runChunks_cons, hrun]
        rfl
      rw [hcons, hrecorded]
      have hone : ∀ writes, next.writes <+: writes →
          ((⟨chunk, reply, updated, failed⟩ : RequestRecord).Isolated answers writes ↔
            Contained chunk reply) := fun writes hlater => isolated_iff hadds hlater
      cases hlimited : reply.limited with
      | true =>
        simp only [if_true]
        refine ⟨⟨fun _ => ⟨⟨next, rfl⟩, fun j hj => absurd hj (Nat.not_lt_zero j)⟩,
          fun _ => ⟨_, rfl⟩⟩, fun state' h => ?_⟩
        obtain rfl := Except.ok.inj h
        have hrequested : requestedOf ((chunk, reply) :: rest) = [(chunk, reply)] := by
          rw [requestedOf_cons, if_pos hlimited]
        refine ⟨updated, failed, quotes, [⟨chunk, reply, updated, failed⟩], hadds.allUpdated,
          hadds.allFailed, hadds.allWrites, rfl, ?_, ?_, ?_, fun _ => hadds.refused hlimited,
          ?_, ?_, ?_⟩
        · rw [hrequested]
          simpa using hadds.requestedIds
        · rw [List.any_cons, hlimited, Bool.true_or]
          exact hadds.stopped.trans hlimited
        · rw [hrequested]
          simpa using hadds.accounted
        · simp
        · rw [hrequested]
          rfl
        · intro writes hlater record hrecord
          rw [List.mem_singleton.1 hrecord]
          exact hone writes hlater
      | false =>
        simp only [Bool.false_eq_true, if_false]
        obtain ⟨hiff', hspec'⟩ := runChunks_spec answers rest
          { next with requests := state.requests ++ [⟨chunk, reply, updated, failed⟩] } hrest
          (hadds.stopped.trans hlimited)
        simp only [hwrites] at hiff'
        refine ⟨hiff'.trans ?_, fun state' h => ?_⟩
        · simp only [Nat.add_assoc]
          exact ⟨fun h => ⟨⟨next, rfl⟩, h⟩, fun h => h.2⟩
        · obtain ⟨updated', failed', quotes', records, hadd⟩ := hspec' state' h
          have hrequested : requestedOf ((chunk, reply) :: rest) =
              (chunk, reply) :: requestedOf rest := by
            rw [requestedOf_cons, if_neg (by rw [hlimited]; exact Bool.false_ne_true)]
          refine ⟨updated ++ updated', failed ++ failed', quotes ++ quotes',
            ⟨chunk, reply, updated, failed⟩ :: records, ?_, ?_, ?_, ?_, ?_, ?_, ?_, ?_, ?_, ?_, ?_⟩
          · rw [hadd.allUpdated, hadds.allUpdated, List.append_assoc]
          · rw [hadd.allFailed, hadds.allFailed, List.append_assoc]
          · rw [hadd.allWrites, hadds.allWrites, List.append_assoc]
          · rw [hadd.allRequests, List.append_assoc, List.singleton_append]
          · rw [hadd.requestedIds, hadds.requestedIds, hrequested, List.flatMap_cons,
              List.length_append, Nat.add_assoc]
          · rw [hadd.stopped, List.any_cons, hlimited, Bool.false_or]
          · rw [hrequested, List.flatMap_cons, List.map_append]
            refine .trans ?_ (hadds.accounted.append hadd.accounted)
            rw [List.append_assoc, List.append_assoc]
            exact (List.perm_append_comm_assoc _ _ _).append_left _
          · exact fun hstopped hnil => hadd.refused hstopped (List.append_eq_nil_iff.1 hnil).2
          · rw [List.flatMap_cons, ← hadd.parts]
          · rw [hrequested, List.map_cons, hadd.history]
          · intro writes hlater record hrecord
            rcases List.mem_cons.1 hrecord with rfl | hrecord
            · refine hone writes ?_
              exact (hadd.allWrites ▸ List.prefix_append _ _ : next.writes <+: state'.writes).trans
                hlater
            · exact hadd.isolated writes hlater record hrecord

/-! ## The result -/

theorem requestedOf_prefix : ∀ exchanges : List (List String × ProviderReply),
    requestedOf exchanges <+: exchanges ∧
      (exchanges.any (·.2.limited) = false → requestedOf exchanges = exchanges)
  | [] => ⟨List.prefix_rfl, fun _ => rfl⟩
  | exchange :: rest => by
    obtain ⟨hstart, hall⟩ := requestedOf_prefix rest
    rw [requestedOf_cons]
    cases hlimited : exchange.2.limited with
    | true =>
      refine ⟨⟨rest, rfl⟩, fun hnone => ?_⟩
      rw [List.any_cons, hlimited] at hnone
      cases hnone
    | false =>
      simp only [Bool.false_eq_true, if_false]
      refine ⟨(List.prefix_cons_inj _).2 hstart, fun hnone => ?_⟩
      rw [List.any_cons, hlimited, Bool.false_or] at hnone
      rw [hall hnone]

/-- **What the claim asks of a cycle**: it ends, every occurrence of an id is in one of the three
lists, each failure under an object body has its own cause, and there is no error exactly when every
id was updated. -/
def CycleHolds (deps : CycleDeps) (options : CycleOptions) : Prop :=
  ∃ result, runCycle deps options = .ok result ∧
    (result.updated ++ result.failed.map (·.assetId) ++ result.notRequested).Perm
      options.assetIds ∧
    result.failed = result.requests.flatMap (·.failed) ∧
    (∀ record ∈ result.requests, record.Isolated deps.answers result.writes) ∧
    (result.error = none ↔ result.updated.Perm options.assetIds)

/-- No good entry meets an overflow in a request that is made, and no query rejects. -/
structure CycleClear (deps : CycleDeps) (options : CycleOptions) : Prop where
  contained : ∀ exchange ∈ requestedOf (exchangesOf deps options),
    Contained exchange.1 exchange.2
  answered : ∀ k < (wantedOf (exchangesOf deps options)).length,
    (deps.answers k).rejects = false
  status : deps.statusAnswer.rejects = false

theorem cycleError_eq_none {failed : List CycleFailure} {notRequested : List String} :
    cycleError failed notRequested = none ↔ failed = [] := by
  unfold cycleError
  split
  · rename_i hnil
    exact ⟨fun _ => hnil, fun _ => rfl⟩
  · rename_i hne
    exact ⟨nofun, fun hnil => absurd hnil hne⟩

/-- **One bad entry costs no other asset its refresh** exactly when no request that is made has a
good entry beside one whose provider timestamp overflows, and no query of the cycle rejects. -/
theorem cycle_isolated_iff (deps : CycleDeps) (options : CycleOptions) :
    CycleHolds deps options ↔ CycleClear deps options := by
  obtain ⟨hflat, hchunks⟩ := exchangesOf_chunks deps options
  obtain ⟨hiff, hspec⟩ := runChunks_spec deps.answers (exchangesOf deps options) {} hchunks rfl
  simp only [List.length_nil, Nat.zero_add] at hiff
  constructor
  · rintro ⟨result, hresult, -, -, hisolated, -⟩
    obtain ⟨state, hstate, hrest⟩ := Except.bind_eq_ok.1 hresult
    obtain ⟨updated, failed, quotes, records, hadds⟩ := hspec state hstate
    cases hstatus : deps.statusAnswer with
    | rejected message => rw [hstatus] at hrest; cases hrest
    | rows count =>
      rw [hstatus] at hrest
      obtain rfl := Except.ok.inj hrest
      refine ⟨fun exchange hexchange => ?_, hiff.1 ⟨state, hstate⟩, by rw [hstatus]; rfl⟩
      rw [← hadds.history] at hexchange
      obtain ⟨record, hrecord, rfl⟩ := List.mem_map.1 hexchange
      have hmem : record ∈ state.requests := by
        rw [hadds.allRequests]
        exact hrecord
      exact (hadds.isolated _ List.prefix_rfl record hrecord).1 (hisolated record hmem)
  · rintro ⟨hcontained, hanswered, hstatus⟩
    obtain ⟨state, hstate⟩ := hiff.2 hanswered
    obtain ⟨updated, failed, quotes, records, hadds⟩ := hspec state hstate
    cases hanswer : deps.statusAnswer with
    | rejected message => rw [hanswer] at hstatus; cases hstatus
    | rows count =>
      have hrun : ∃ status, runCycle deps options = .ok ⟨state.updated, state.failed,
          state.stoppedOnRateLimit, if state.stoppedOnRateLimit then
            options.assetIds.drop state.requestedIds else [], state.rateLimit,
          cycleError state.failed (if state.stoppedOnRateLimit then
            options.assetIds.drop state.requestedIds else []), status, state.writes,
          state.requests⟩ := by
        unfold runCycle
        rw [hstate, hanswer]
        exact ⟨_, rfl⟩
      obtain ⟨status, hrun⟩ := hrun
      have hupdated : state.updated = updated := hadds.allUpdated
      have hfailed : state.failed = failed := hadds.allFailed
      -- the ids of the requests are the first ids, the others are those not requested
      have hids : (requestedOf (exchangesOf deps options)).flatMap (·.1) ++
          (if state.stoppedOnRateLimit then options.assetIds.drop state.requestedIds else []) =
            options.assetIds := by
        obtain ⟨hstart, hall⟩ := requestedOf_prefix (exchangesOf deps options)
        cases hstopped : state.stoppedOnRateLimit with
        | false =>
          rw [hall (hadds.stopped.symm.trans hstopped), hflat]
          exact List.append_nil _
        | true =>
          obtain ⟨rest, hrest⟩ := hstart
          have hrequested : state.requestedIds =
              ((requestedOf (exchangesOf deps options)).flatMap (·.1)).length := by
            rw [hadds.requestedIds]
            exact Nat.zero_add _
          have hsplit : options.assetIds =
              (requestedOf (exchangesOf deps options)).flatMap (·.1) ++ rest.flatMap (·.1) := by
            rw [← hflat, ← List.flatMap_append, hrest]
          rw [if_pos rfl, hrequested]
          generalize requestedOf (exchangesOf deps options) = requested at hsplit
          rw [hsplit, List.drop_left]
      refine ⟨_, hrun, ?_, ?_, fun record hrecord => ?_, ?_⟩
      · simp only [hupdated, hfailed]
        exact (hadds.accounted.append_right _).trans (.of_eq hids)
      · simp only [hfailed, hadds.allRequests]
        exact hadds.parts
      · have hmem : record ∈ records := by
          rw [hadds.allRequests] at hrecord
          exact hrecord
        refine (hadds.isolated _ List.prefix_rfl record hmem).2 ?_
        refine hcontained (record.chunk, record.reply) ?_
        rw [← hadds.history]
        exact List.mem_map_of_mem (f := fun record => (record.chunk, record.reply)) hmem
      · simp only [hupdated, hfailed]
        rw [cycleError_eq_none]
        constructor
        · rintro rfl
          cases hstopped : state.stoppedOnRateLimit with
          | true => exact absurd rfl (hadds.refused hstopped)
          | false =>
            have hperm := hadds.accounted
            rw [List.map_nil, List.append_nil] at hperm
            rw [hstopped] at hids
            exact hperm.trans (.of_eq ((List.append_nil _).symm.trans hids))
        · intro hperm
          have hlen := hadds.accounted.length_eq
          have hall := congrArg List.length hids
          have hsame := hperm.length_eq
          rw [List.length_append, List.length_map] at hlen
          rw [List.length_append] at hall
          exact List.eq_nil_of_length_eq_zero (by omega)

/-- A reply with one timestamp in microseconds and one good entry. -/
def microseconds : ProviderReply :=
  .answered ⟨200, none, none, none, some (.object
    [("bitcoin", .object [("usd", .number 1), ("last_updated_at", .number 1788380750000000)]),
      ("ethereum", .object [("usd", .number 1)])])⟩

/-- The good entry fails with the other. -/
theorem cycle_not_isolated :
    ¬ CycleHolds ⟨fun _ => microseconds, fun _ => .rows 1, .rows 1, ""⟩
      { assetIds := ["bitcoin", "ethereum"] } := by
  rintro ⟨result, hresult, -, -, hisolated, -⟩
  have hrun : (runCycle ⟨fun _ => microseconds, fun _ => .rows 1, .rows 1, ""⟩
      { assetIds := ["bitcoin", "ethereum"] }).toOption.map (fun result =>
        result.requests.map fun record => (record.failed.map fun f => (f.assetId, f.kind),
          record.reply.objectBody.map fun fields => (entryOf fields "ethereum").good)) =
      some [([("bitcoin", "unknown"), ("ethereum", "unknown")], some true)] := by
    decide +kernel
  rw [hresult] at hrun
  obtain ⟨record, hrequests, hrecord⟩ := List.map_eq_singleton_iff.1 (Option.some.inj hrun)
  obtain ⟨hfailed, hbody⟩ := Prod.mk.inj hrecord
  obtain ⟨fields, hfields, hgood⟩ := Option.map_eq_some_iff.1 hbody
  have hmem : ("ethereum", "unknown") ∈ record.failed.map fun f => (f.assetId, f.kind) := by
    rw [hfailed]
    decide
  obtain ⟨failure, hfailure, hown⟩ := List.mem_map.1 hmem
  obtain ⟨hid, hkind⟩ := Prod.mk.inj hown
  have hrecord : record ∈ result.requests := by
    rw [hrequests]
    exact List.mem_singleton_self record
  obtain ⟨-, hbad | ⟨hwritten, -⟩⟩ := hisolated record hrecord fields hfields failure hfailure
  · rw [hid, hgood] at hbad
    cases hbad
  · rw [hkind] at hwritten
    exact absurd hwritten (by decide)

end ZswapKernel
