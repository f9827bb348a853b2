import ZswapKernel.Node.OfferIdentity
import ZswapKernel.Node.RootRetention

/-!
# When intake answers

A blob halts the node if its transition fails, since the block is rolled back. Past the proof check
nothing fails: the times of an offer are dates (`offerTimes_isOk`) and its rows are new
(`saveOfferFile_isOk`). Before it, a probe fails when it hands a number to its statement that is out
of the range of the column.

* `LedgerRules` — what the ledger does, as the source relies on it.
* `Db.Dated` — the sightings of the known roots are dates, along `NodeSteps`.
* `intake_answers_iff` — when a blob is indexed or rejected.
-/

namespace ZswapKernel

/-- The rules of the ledger that intake relies on. -/
structure LedgerRules (ledger : Ledger) (globalTtlMs : Int) : Prop where
  /-- `deriveTokenLegs` nets per color and layer. -/
  netted : ∀ tx gives wants, ledger.deriveTokenLegs tx = .ok (gives, wants) →
    (gives.map fun leg => (leg.token, leg.kind)).Nodup ∧
      (wants.map fun leg => (leg.token, leg.kind)).Nodup
  /-- `tblock <= ttl <= tblock + global_ttl`, of every intent. -/
  ttl : ∀ tx tblock ttl, ledger.wellFormed tx tblock = .ok () →
    ledger.earliestIntentTtl tx = some ttl → tblock ≤ ttl ∧ ttl ≤ tblock + globalTtlMs
  /-- The reference state holds no DUST root history: no DUST spend passes. -/
  dust : ∀ tx tblock, ledger.wellFormed tx tblock = .ok () → ∀ entry ∈ tx.intents,
    ∀ dust ∈ entry.2.dustActions, dust.spends = 0

/-- The limits counted from the clock of the block are dates. -/
structure ClockInRange (env : NodeEnv) (globalTtlMs : Int) (ctx : BlockContext) : Prop where
  rootWindow : 0 ≤ env.rootWindowMs
  offerTtl : 0 ≤ env.offerTtlSeconds
  globalTtl : 0 ≤ globalTtlMs
  root : ctx.blockTimestamp + env.rootWindowMs ≤ maxDateMs
  fallback : ctx.blockTimestamp + env.offerTtlSeconds * 1000 ≤ maxDateMs
  intent : ctx.blockTimestamp + globalTtlMs ≤ maxDateMs

/-! ## Dates -/

theorem expiryTimestamp_isOk {label : String} {value : Int} (hlow : 0 ≤ value)
    (hhigh : value ≤ maxDateMs) : expiryTimestamp label value = .ok value := by
  unfold expiryTimestamp
  rw [if_pos ⟨by unfold maxDateMs; omega, hhigh⟩]

theorem mapM_expiryTimestamp {label : String} {value : Option Int}
    (h : ∀ limit ∈ value, 0 ≤ limit ∧ limit ≤ maxDateMs) :
    value.mapM (expiryTimestamp label) = .ok value := by
  cases value with
  | none => rfl
  | some limit =>
    obtain ⟨hlow, hhigh⟩ := h limit rfl
    rw [Option.mapM_some, expiryTimestamp_isOk hlow hhigh]
    rfl

/-- Dates have an earliest. -/
theorem deriveOfferExpiry_isOk {root intent : Option Int} {fallback : Int}
    (hroot : ∀ limit ∈ root, 0 ≤ limit ∧ limit ≤ maxDateMs)
    (hintent : ∀ limit ∈ intent, 0 ≤ limit ∧ limit ≤ maxDateMs)
    (hfallback : 0 ≤ fallback ∧ fallback ≤ maxDateMs) :
    ∃ expiry, deriveOfferExpiry root intent none fallback = .ok expiry := by
  unfold deriveOfferExpiry
  rw [mapM_expiryTimestamp hroot, mapM_expiryTimestamp hintent]
  cases hmin : (root.toList ++ intent.toList ++ (none : Option Int).toList).min? with
  | some earliest =>
    refine ⟨earliest, ?_⟩
    simp only [bind, Except.bind, Option.mapM_none, pure, Except.pure]
    rw [hmin]
  | none =>
    refine ⟨fallback, ?_⟩
    simp only [bind, Except.bind, Option.mapM_none, pure, Except.pure]
    rw [hmin]
    exact expiryTimestamp_isOk hfallback.1 hfallback.2

theorem earliestDustSpendDeadline_none {tx : OfferTransaction} (graceSeconds : Int)
    (h : ∀ entry ∈ tx.intents, ∀ dust ∈ entry.2.dustActions, dust.spends = 0) :
    earliestDustSpendDeadline tx graceSeconds = .ok none := by
  unfold earliestDustSpendDeadline
  rw [List.filterMap_eq_nil_iff.mpr]
  · rfl
  · rintro ⟨segment, intent⟩ hentry
    cases hdust : intent.dustActions with
    | none => simp [hdust]
    | some dust =>
      have hzero := h _ hentry dust hdust
      simp [hdust, Option.filter, hzero]

/-- The known roots were seen between two times. -/
def KnownRoots.SeenWithin (roots : KnownRoots) (since upTo : Int) : Prop :=
  ∀ row ∈ roots.rows, (since ≤ row.firstSeenMs ∧ row.firstSeenMs ≤ upTo) ∧
    since ≤ row.lastSeenMs ∧ row.lastSeenMs ≤ upTo

section Roots

variable {roots : KnownRoots} {since now now' : Int}

theorem KnownRoots.SeenWithin.mono (h : roots.SeenWithin since now) (hnow : now ≤ now') :
    roots.SeenWithin since now' := by
  intro row hrow
  obtain ⟨⟨hfirst, hfirst'⟩, hlast, hlast'⟩ := h row hrow
  exact ⟨⟨hfirst, hfirst'.trans hnow⟩, hlast, hlast'.trans hnow⟩

theorem KnownRoots.SeenWithin.prune (h : roots.SeenWithin since now) (cutoffMs : Int) :
    (roots.prune cutoffMs).SeenWithin since now :=
  fun row hrow => h row (KnownRoots.mem_prune.mp hrow).1

theorem KnownRoots.SeenWithin.upsert (h : roots.SeenWithin since now) (hnow : since ≤ now)
    (root : String) (height : Nat) : (roots.upsert root height now).SeenWithin since now := by
  intro row hrow
  rcases KnownRoots.mem_upsert.mp hrow with ⟨-, -, hlast, hfirst⟩ | ⟨hrow, -⟩
  · rw [hlast, hfirst]
    refine ⟨?_, hnow, le_rfl⟩
    cases hfind : roots.rows.find? (·.root = root) with
    | none => exact ⟨hnow, le_rfl⟩
    | some old => exact (h old (List.mem_of_find?_eq_some hfind)).1
  · exact h row hrow

/-- The timing of an offer's roots lies in the same span. -/
theorem KnownRoots.SeenWithin.getOfferRootTiming (h : roots.SeenWithin since now)
    (hnow : since ≤ now) (inputRoots : List String) :
    (∀ firstSeen ∈ (roots.getOfferRootTiming inputRoots now).1,
      since ≤ firstSeen ∧ firstSeen ≤ now) ∧
    ∀ anchor ∈ (roots.getOfferRootTiming inputRoots now).2, since ≤ anchor ∧ anchor ≤ now := by
  unfold KnownRoots.getOfferRootTiming
  constructor
  · intro firstSeen hmin
    obtain ⟨row, hrow, rfl⟩ := List.mem_map.mp (List.min?_mem hmin)
    exact (h row (List.mem_filter.mp hrow).1).1
  · intro anchor hmin
    obtain ⟨row, hrow, rfl⟩ := List.mem_map.mp (List.min?_mem hmin)
    obtain ⟨-, hlast, hlast'⟩ := h row (List.mem_filter.mp hrow).1
    unfold KnownRoots.windowAnchor
    split
    · exact ⟨hnow.trans (le_max_right _ _), max_le hlast' le_rfl⟩
    · exact ⟨hlast, hlast'⟩

end Roots

/-! ## Rows -/

/-- The key of a leg, of which an offer has one each. -/
def TokenLeg.key (leg : TokenLeg) : (String × ValueLayer) × LegDirection :=
  ((leg.token, leg.kind), leg.direction)

section Tokens

variable {db db' : Db} {offerFileId : Nat}

/-- New legs of distinct keys are inserted. -/
theorem foldlM_insertOfferFileToken_isOk {legs : List TokenLeg}
    (hdistinct : (legs.map TokenLeg.key).Nodup)
    (hnew : ∀ leg ∈ legs, ∀ row ∈ db.tokens, row.offerFileId = offerFileId →
      row.value.key ≠ leg.key) :
    ∃ db', legs.foldlM (Db.insertOfferFileToken offerFileId) db = .ok db' := by
  induction legs generalizing db with
  | nil => exact ⟨db, rfl⟩
  | cons leg legs ih =>
    rw [List.map_cons, List.nodup_cons] at hdistinct
    have hfirst : Db.insertOfferFileToken offerFileId db leg =
        .ok { db with tokens := db.tokens ++ [⟨offerFileId, leg⟩] } := by
      unfold Db.insertOfferFileToken
      rw [if_neg]
      intro hany
      obtain ⟨row, hrow, hsame⟩ := List.any_eq_true.mp hany
      simp only [Bool.and_eq_true, decide_eq_true_eq] at hsame
      obtain ⟨⟨⟨hid, htoken⟩, hdirection⟩, hkind⟩ := hsame
      refine hnew leg List.mem_cons_self row hrow hid ?_
      unfold TokenLeg.key
      rw [htoken, hkind, hdirection]
    rw [List.foldlM_cons, hfirst]
    refine ih hdistinct.2 fun other hother row hrow hid => ?_
    rcases List.mem_append.mp hrow with hrow | hrow
    · exact hnew other (List.mem_cons_of_mem _ hother) row hrow hid
    · rw [List.mem_singleton.mp hrow]
      exact fun heq => hdistinct.1 (heq ▸ List.mem_map_of_mem hother)

/-- The rows before stay, and the new ones carry the id of the offer. -/
theorem mem_tokens_foldlM {legs : List TokenLeg}
    (h : legs.foldlM (Db.insertOfferFileToken offerFileId) db = .ok db') :
    ∀ row ∈ db'.tokens, row ∈ db.tokens ∨ row.offerFileId = offerFileId := by
  induction legs generalizing db with
  | nil =>
    cases h
    exact fun row hrow => .inl hrow
  | cons leg legs ih =>
    rw [List.foldlM_cons, Except.bind_eq_ok] at h
    obtain ⟨middle, hleg, hrest⟩ := h
    unfold Db.insertOfferFileToken at hleg
    split at hleg
    · cases hleg
    · cases hleg
      intro row hrow
      rcases ih hrest row hrow with hrow | hid
      · rcases List.mem_append.mp hrow with hrow | hrow
        · exact .inl hrow
        · exact .inr (List.mem_singleton.mp hrow ▸ rfl)
      · exact .inr hid

end Tokens

/-- The legs of both sides of an offer. -/
def tokenLegs (result : OfferValidation) : List TokenLeg :=
  result.gives.map (TokenLeg.mk · .giving) ++ result.wants.map (TokenLeg.mk · .wanting)

theorem tokenLegs_keys {result : OfferValidation}
    (hgives : (result.gives.map fun leg => (leg.token, leg.kind)).Nodup)
    (hwants : (result.wants.map fun leg => (leg.token, leg.kind)).Nodup) :
    ((tokenLegs result).map TokenLeg.key).Nodup := by
  unfold tokenLegs
  rw [List.map_append, List.map_map, List.map_map, List.nodup_append]
  have hkeys : ∀ (legs : List OfferLeg) (direction : LegDirection),
      legs.map (TokenLeg.key ∘ (TokenLeg.mk · direction)) =
        (legs.map fun leg => (leg.token, leg.kind)).map (·, direction) := by
    intro legs direction
    rw [List.map_map]
    rfl
  rw [hkeys, hkeys]
  refine ⟨hgives.map fun _ _ h => congrArg Prod.fst h,
    hwants.map fun _ _ h => congrArg Prod.fst h, ?_⟩
  intro give hgive want hwant heq
  obtain ⟨_, -, rfl⟩ := List.mem_map.mp hgive
  obtain ⟨_, -, rfl⟩ := List.mem_map.mp hwant
  cases congrArg Prod.snd heq

section Save

variable {ledger : Ledger} {ctx : BlockContext} {db db' : Db} {rawBytes : List UInt8}
  {result : OfferValidation} {expiresAt firstSeenAt : Int}

/-- Saving an offer, up to its legs. -/
theorem saveOfferFile_eq : ∃ declared : Db, declared.tokens = db.tokens ∧
    saveOfferFile ledger ctx rawBytes result expiresAt firstSeenAt db =
      (tokenLegs result).foldlM (Db.insertOfferFileToken db.nextId) declared := by
  unfold saveOfferFile tokenLegs
  simp only [foldl_insertOfferFileNullifier, foldl_insertOfferFileUnshieldedSpend,
    foldl_insertOfferFileCommitment, foldl_insertOfferFileUnshieldedOutput, List.foldlM_append]
  refine ⟨_, ?_, rfl⟩
  rfl

/-- **A new offer can be saved**, if its legs are distinct. -/
theorem saveOfferFile_isOk (hids : ∀ row ∈ db.tokens, row.offerFileId < db.nextId)
    (hdistinct : ((tokenLegs result).map TokenLeg.key).Nodup) :
    ∃ saved, saveOfferFile ledger ctx rawBytes result expiresAt firstSeenAt db = .ok saved := by
  obtain ⟨declared, htokens, hsave⟩ := @saveOfferFile_eq ledger ctx db rawBytes result
    expiresAt firstSeenAt
  rw [hsave]
  refine foldlM_insertOfferFileToken_isOk hdistinct fun leg _ row hrow hid => ?_
  exact absurd hid (hids row (htokens ▸ hrow)).ne

theorem saveOfferFile_tokens
    (h : saveOfferFile ledger ctx rawBytes result expiresAt firstSeenAt db = .ok db') :
    ∀ row ∈ db'.tokens, row ∈ db.tokens ∨ row.offerFileId = db.nextId := by
  obtain ⟨declared, htokens, hsave⟩ := @saveOfferFile_eq ledger ctx db rawBytes result
    expiresAt firstSeenAt
  rw [hsave] at h
  rw [← htokens]
  exact mem_tokens_foldlM h

end Save

/-! ## Reachable states -/

/-- The sightings of the roots are dates since `since`, and the legs belong to known offers. -/
structure Db.Dated (since : Int) (ctx : BlockContext) (db : Db) : Prop where
  now : since ≤ ctx.blockTimestamp
  roots : db.knownRoots.SeenWithin since ctx.blockTimestamp
  tokens : ∀ row ∈ db.tokens, row.offerFileId < db.nextId

section Run

variable {env : NodeEnv} {ledger : Ledger} {start ctx : BlockContext} {db db' : Db}

/-- The legs of one step: some of those before, or those of the offer it saves. -/
theorem processInput_tokens {input : NodeInput}
    (hstep : processInput env ledger ctx db input = .ok db') :
    db.nextId ≤ db'.nextId ∧
      ∀ row ∈ db'.tokens, row ∈ db.tokens ∨ row.offerFileId < db'.nextId := by
  cases input with
  | celestiaZswap suppliedValue =>
    rcases celestiaZswap_ok hstep with ⟨code, rfl⟩ | ⟨_, _, _, saved, haccepts, rfl⟩
    · exact ⟨le_rfl, fun row hrow => .inl hrow⟩
    · have htokens := saveOfferFile_tokens haccepts.saved
      obtain ⟨tokens, rfl⟩ := saveOfferFile_ok haccepts.saved
      refine ⟨Nat.le_succ _, fun row hrow => ?_⟩
      rcases htokens row hrow with hrow | hid
      · exact .inl hrow
      · exact .inr (hid ▸ Nat.lt_succ_self _)
  | zswapEvent event =>
    cases hstep
    cases event with
    | commitment commitment txHash mtIndex => exact ⟨le_rfl, fun row hrow => .inl hrow⟩
    | nullifier nullifier txHash =>
      obtain ⟨marked, hevent⟩ := zswapEvent_nullifier ctx nullifier txHash db
      rw [hevent]
      cases marked <;> exact ⟨le_rfl, fun row hrow => .inl (List.mem_filter.mp hrow).1⟩
  | unshieldedSpend payload =>
    cases hstep
    cases hcoin : payload.coin ledger with
    | none =>
      unfold unshieldedSpend
      rw [hcoin]
      exact ⟨le_rfl, fun row hrow => .inl hrow⟩
    | some coin =>
      rw [unshieldedSpend_coin hcoin]
      exact ⟨le_rfl, fun row hrow => .inl (List.mem_filter.mp hrow).1⟩
  | unshieldedCreate payload =>
    cases hstep
    unfold unshieldedCreate
    split <;> exact ⟨le_rfl, fun row hrow => .inl hrow⟩
  | zswapRoot root =>
    cases hstep
    unfold zswapRoot
    simp only
    split <;> exact ⟨le_rfl, fun row hrow => .inl hrow⟩
  | ttlCleanup offerId =>
    obtain ⟨cutoff, -, hstep⟩ := Except.bind_eq_ok.mp hstep
    cases hstep
    exact ⟨le_rfl, fun row hrow => .inl (List.mem_filter.mp hrow).1⟩

theorem Db.Dated.processInput {since : Int} (h : db.Dated since ctx) {input : NodeInput}
    (hstep : ZswapKernel.processInput env ledger ctx db input = .ok db') : db'.Dated since ctx where
  now := h.now
  roots := by
    rcases knownRoots_processInput hstep with hsame | ⟨payloadRoot, -, -, hroots⟩
    · rw [hsame]
      exact h.roots
    · rw [hroots]
      exact (h.roots.upsert h.now _ _).prune _
  tokens := by
    obtain ⟨hnext, htokens⟩ := processInput_tokens hstep
    intro row hrow
    rcases htokens row hrow with hrow | hid
    · exact (h.tokens row hrow).trans_le hnext
    · exact hid

/-- **Sightings are dates**, in every state a run reaches. -/
theorem NodeSteps.dated (h : NodeSteps env ledger start {} ctx db) :
    db.Dated start.blockTimestamp ctx := by
  induction h with
  | refl =>
    exact ⟨le_rfl, fun row hrow => absurd hrow List.not_mem_nil,
      fun row hrow => absurd hrow List.not_mem_nil⟩
  | block _ _ htime ih => exact ⟨ih.now.trans htime, ih.roots.mono htime, ih.tokens⟩
  | input _ input hstep ih => exact ih.processInput hstep

end Run

/-! ## Answers -/

section Answers

variable {env : NodeEnv} {ledger : Ledger} {globalTtlMs since : Int} {ctx : BlockContext}
  {db db' : Db} {rawBytes : List UInt8} {result : OfferValidation}

/-- Past the proof check the times of an offer are dates. -/
theorem offerTimes_isOk (hrules : LedgerRules ledger globalTtlMs)
    (hclock : ClockInRange env globalTtlMs ctx) (hsince : 0 ≤ since) (hdated : db.Dated since ctx)
    (hcrypto : ledger.wellFormed result.tx ctx.blockTimestamp = .ok ()) :
    ∃ times, offerTimes env ledger ctx db.knownRoots result = .ok times := by
  have hnow := hsince.trans hdated.now
  have hroot := hclock.root
  have hfallback := hclock.fallback
  have hintent := hclock.intent
  obtain ⟨hwindow, httl, hglobal⟩ := And.intro hclock.rootWindow
    (And.intro hclock.offerTtl hclock.globalTtl)
  obtain ⟨hfirst, hanchor⟩ := hdated.roots.getOfferRootTiming hdated.now result.inputRoots
  have hblock : toISOString ctx.blockTimestamp = .ok ctx.blockTimestamp := by
    unfold toISOString
    rw [if_pos ⟨by unfold maxDateMs; omega, by omega⟩]
  have hdust := earliestDustSpendDeadline_none env.dustGracePeriodSeconds
    (hrules.dust _ _ hcrypto)
  obtain ⟨expiry, hexpiry⟩ := @deriveOfferExpiry_isOk
    ((db.knownRoots.getOfferRootTiming result.inputRoots ctx.blockTimestamp).2.map
      (· + env.rootWindowMs)) (ledger.earliestIntentTtl result.tx)
    (ctx.blockTimestamp + env.offerTtlSeconds * 1000)
    (by
      intro limit hlimit
      obtain ⟨anchor, hmem, rfl⟩ := Option.map_eq_some_iff.mp hlimit
      obtain ⟨hlow, hhigh⟩ := hanchor anchor hmem
      constructor <;> omega)
    (by
      intro limit hlimit
      obtain ⟨hlow, hhigh⟩ := hrules.ttl _ _ _ hcrypto hlimit
      constructor <;> omega)
    (by constructor <;> omega)
  unfold offerTimes
  rw [hblock, hdust]
  simp only [bind, Except.bind]
  rw [hexpiry]
  cases hseen : (db.knownRoots.getOfferRootTiming result.inputRoots ctx.blockTimestamp).1 with
  | none => exact ⟨_, rfl⟩
  | some firstSeen =>
    obtain ⟨hlow, hhigh⟩ := hfirst firstSeen hseen
    simp only [@expiryTimestamp_isOk "root first-seen" firstSeen (by omega) (by omega)]
    exact ⟨_, rfl⟩

/-- The legs of a valid offer are distinct. -/
theorem validated_legs {maxBytes : Nat} (hrules : LedgerRules ledger globalTtlMs)
    (h : validateZswapOfferBytes ledger maxBytes rawBytes = .ok result) :
    ((tokenLegs result).map TokenLeg.key).Nodup := by
  unfold validateZswapOfferBytes at h
  split at h
  · cases h
  split at h
  · cases h
  dsimp only at h
  split at h
  · cases h
  split at h
  · cases h
  · cases h
  rename_i tx hlegs
  split at h
  · cases h
  split at h
  · cases h
  split at h
  · cases h
  · cases h
    obtain ⟨hgives, hwants⟩ := hrules.netted _ _ _ hlegs
    exact tokenLegs_keys hgives hwants

/-- The number fits the column. -/
def InIntegerRange (value : Int) : Prop := -2 ^ 31 ≤ value ∧ value < 2 ^ 31

theorem pgInteger_ok {value : Int} : pgInteger value = .ok () ↔ InIntegerRange value := by
  unfold pgInteger InIntegerRange
  split
  · rename_i hrange
    exact ⟨fun _ => hrange, fun _ => rfl⟩
  · rename_i hrange
    exact ⟨nofun, fun h => absurd h hrange⟩

/-- After descriptors that are live, a coin whose output number does not fit. -/
def LivenessOutOfRange (env : NodeEnv) (ctx : BlockContext) (db : Db) (result : OfferValidation) :
    Prop :=
  ∃ before ref after, orderedOfferLivenessDescriptors result = before ++ .unshielded ref :: after ∧
    (∀ descriptor ∈ before,
      db.isLive (ctx.blockTimestamp - env.rootWindowMs) descriptor = true) ∧
    ¬ InIntegerRange ref.outputNo

/-- After markers nobody claims, an output whose number does not fit. -/
def MarkersOutOfRange (db : Db) (result : OfferValidation) : Prop :=
  ∃ before output after, declaredMarkers result.tx = before ++ .unshieldedOutput output :: after ∧
    (∀ marker ∈ before, db.claimedBy marker = none) ∧ ¬ InIntegerRange output.outputNo

/-- Intake reaches a probe whose number does not fit its column. -/
def ProbesOutOfRange (env : NodeEnv) (ledger : Ledger) (ctx : BlockContext)
    (rawBytes : List UInt8) (db : Db) : Prop :=
  ∃ result, validateZswapOfferBytes ledger env.offerMaxBytes rawBytes = .ok result ∧
    db.hasOfferHash (ledger.sha256 rawBytes) = false ∧
    (LivenessOutOfRange env ctx db result ∨
      (db.offerLiveness result (ctx.blockTimestamp - env.rootWindowMs) = .ok () ∧
        verifyOfferCrypto ledger result.tx ctx.blockTimestamp = .ok () ∧
        MarkersOutOfRange db result))

theorem probeLiveness_isOk :
    (∃ verdict, db.probeLiveness result (ctx.blockTimestamp - env.rootWindowMs) = .ok verdict) ↔
      ¬ LivenessOutOfRange env ctx db result := by
  have hprobe : (∃ verdict, db.probeLiveness result (ctx.blockTimestamp - env.rootWindowMs) =
      .ok verdict) ↔ ∃ dead, (orderedOfferLivenessDescriptors result).findM? (fun descriptor => do
        descriptor.parameters
        return !db.isLive (ctx.blockTimestamp - env.rootWindowMs) descriptor) = .ok dead := by
    unfold Db.probeLiveness
    constructor
    · rintro ⟨verdict, h⟩
      obtain ⟨dead, hdead, -⟩ := Except.bind_eq_ok.mp h
      exact ⟨dead, hdead⟩
    · rintro ⟨dead, hdead⟩
      rw [hdead]
      exact ⟨_, rfl⟩
  rw [hprobe, Except.findM?_isOk]
  constructor
  · rintro hall ⟨before, ref, after, hsplit, hlive, hrange⟩
    have hfits := hall before _ after hsplit fun descriptor hmem => by rw [hlive _ hmem]; rfl
    exact hrange (pgInteger_ok.mp hfits)
  · intro hnone before descriptor after hsplit hlive
    cases descriptor with
    | nullifier nullifier => rfl
    | root root => rfl
    | unshielded ref =>
      refine pgInteger_ok.mpr
        (by_contra fun hrange => hnone ⟨before, ref, after, hsplit, ?_, hrange⟩)
      exact fun descriptor hmem => (Bool.not_eq_false' _).mp (hlive descriptor hmem)

theorem probeMarkers_isOk : (∃ claimed, db.probeMarkers (declaredMarkers result.tx) = .ok claimed) ↔
    ¬ MarkersOutOfRange db result := by
  unfold Db.probeMarkers
  rw [Except.findM?_isOk]
  constructor
  · rintro hall ⟨before, output, after, hsplit, hfree, hrange⟩
    have hfits := hall before _ after hsplit fun marker hmem => by rw [hfree _ hmem]; rfl
    exact hrange (pgInteger_ok.mp hfits)
  · intro hnone before marker after hsplit hfree
    cases marker with
    | commitment commitment => rfl
    | unshieldedOutput output =>
      refine pgInteger_ok.mpr
        (by_contra fun hrange => hnone ⟨before, output, after, hsplit, ?_, hrange⟩)
      intro marker hmem
      have := hfree marker hmem
      simpa using this

/-- The transition makes the hash of the blob known. -/
def Db.Indexes (ledger : Ledger) (rawBytes : List UInt8) (db db' : Db) : Prop :=
  db.hasOfferHash (ledger.sha256 rawBytes) = false ∧
    db'.hasOfferHash (ledger.sha256 rawBytes) = true

/-- A blob that passes every check is indexed. -/
theorem celestiaZswap_passed (hrules : LedgerRules ledger globalTtlMs)
    (hclock : ClockInRange env globalTtlMs ctx) (hsince : 0 ≤ since) (hdated : db.Dated since ctx)
    (hvalidated : validateZswapOfferBytes ledger env.offerMaxBytes rawBytes = .ok result)
    (hfresh : db.hasOfferHash (ledger.sha256 rawBytes) = false)
    (hprobe : db.probeLiveness result (ctx.blockTimestamp - env.rootWindowMs) = .ok (.ok ()))
    (hcrypto : verifyOfferCrypto ledger result.tx ctx.blockTimestamp = .ok ())
    (hclaimed : db.probeMarkers (declaredMarkers result.tx) = .ok none) :
    ∃ db', celestiaZswap env ledger ctx rawBytes db = .ok db' ∧ db.Indexes ledger rawBytes db' := by
  have hwellFormed : ledger.wellFormed result.tx ctx.blockTimestamp = .ok () := by
    unfold verifyOfferCrypto at hcrypto
    split at hcrypto
    · assumption
    · cases hcrypto
  obtain ⟨⟨expiresAt, firstSeenAt⟩, htimes⟩ :=
    offerTimes_isOk hrules hclock hsince hdated hwellFormed
  obtain ⟨saved, hsaved⟩ := @saveOfferFile_isOk ledger ctx db rawBytes result expiresAt
    firstSeenAt hdated.tokens (validated_legs hrules hvalidated)
  obtain ⟨tokens, htables⟩ := saveOfferFile_ok hsaved
  have hunspent : ∀ nullifier ∈ result.nullifiers, saved.isNullifierSpent nullifier = false := by
    intro nullifier hmem
    have hlive := (evaluateOfferLiveness_ok (probeLiveness_ok hprobe)).1 nullifier hmem
    rw [htables]
    exact (Bool.not_eq_true' _).mp hlive
  refine ⟨{ saved with scheduled := saved.scheduled ++ [(expiresAt, db.nextId)] }, ?_, hfresh, ?_⟩
  · unfold celestiaZswap
    simp only [hvalidated, hfresh, hprobe, hcrypto, hclaimed, htimes, hsaved,
      foldl_reconcileNullifier hunspent, bind, Except.bind, Option.isSome_none,
      Bool.false_eq_true, if_false]
    rfl
  · unfold Db.hasOfferHash
    rw [Bool.or_eq_true, List.any_eq_true, htables]
    exact .inl ⟨_, List.mem_append_right _ List.mem_cons_self, decide_eq_true rfl⟩

/-- A blob whose probes fit is answered. -/
theorem celestiaZswap_isOk (hrules : LedgerRules ledger globalTtlMs)
    (hclock : ClockInRange env globalTtlMs ctx) (hsince : 0 ≤ since) (hdated : db.Dated since ctx)
    (hfits : ¬ ProbesOutOfRange env ledger ctx rawBytes db) :
    ∃ db', celestiaZswap env ledger ctx rawBytes db = .ok db' := by
  unfold celestiaZswap
  cases hvalidated : validateZswapOfferBytes ledger env.offerMaxBytes rawBytes with
  | error rejection => exact ⟨_, rfl⟩
  | ok result =>
    dsimp only
    cases hfresh : db.hasOfferHash (ledger.sha256 rawBytes) with
    | true => exact ⟨_, rfl⟩
    | false =>
      obtain ⟨liveness, hprobe⟩ := (@probeLiveness_isOk env ctx db result).mpr
        fun hrange => hfits ⟨result, hvalidated, hfresh, .inl hrange⟩
      have hlive := probeLiveness_ok hprobe
      simp only [hprobe, Bool.false_eq_true, if_false, bind, Except.bind]
      cases liveness with
      | error rejection => exact ⟨_, rfl⟩
      | ok verdict =>
        dsimp only
        cases hcrypto : verifyOfferCrypto ledger result.tx ctx.blockTimestamp with
        | error rejection => exact ⟨_, rfl⟩
        | ok verdict =>
          obtain ⟨claimed, hclaimed⟩ := probeMarkers_isOk.mpr fun hrange =>
            hfits ⟨result, hvalidated, hfresh, .inr ⟨hlive, hcrypto, hrange⟩⟩
          simp only [hclaimed]
          cases claimed with
          | some marker => exact ⟨_, rfl⟩
          | none =>
            obtain ⟨db', hanswer, -⟩ := celestiaZswap_passed hrules hclock hsince hdated hvalidated
              hfresh hprobe hcrypto hclaimed
            refine ⟨db', ?_⟩
            rw [← hanswer]
            unfold celestiaZswap
            simp only [hvalidated, hfresh, hprobe, hcrypto, hclaimed, bind, Except.bind,
              Bool.false_eq_true, if_false]

/-- An answered blob is rejected or indexed. -/
theorem celestiaZswap_answer (h : celestiaZswap env ledger ctx rawBytes db = .ok db') :
    (∃ code, db' = rejectOffer env ctx rawBytes code db) ∨ db.Indexes ledger rawBytes db' := by
  rcases celestiaZswap_cases h with hreject | ⟨_, _, _, saved, haccepts, -, -, rfl⟩
  · exact .inl hreject
  · refine .inr ⟨haccepts.fresh, ?_⟩
    obtain ⟨tokens, rfl⟩ := saveOfferFile_ok haccepts.saved
    unfold Db.hasOfferHash
    rw [Bool.or_eq_true, List.any_eq_true]
    exact .inl ⟨_, List.mem_append_right _ List.mem_cons_self, decide_eq_true rfl⟩

/-- A probe that does not fit fails. -/
theorem celestiaZswap_error (h : ProbesOutOfRange env ledger ctx rawBytes db) :
    ¬ ∃ db', celestiaZswap env ledger ctx rawBytes db = .ok db' := by
  rintro ⟨db', hanswer⟩
  obtain ⟨result, hvalidated, hfresh, hrange⟩ := h
  unfold celestiaZswap at hanswer
  rw [hvalidated] at hanswer
  simp only [hfresh, Bool.false_eq_true, if_false] at hanswer
  obtain ⟨liveness, hprobe, hanswer⟩ := Except.bind_eq_ok.mp hanswer
  rcases hrange with hrange | ⟨hlive, hcrypto, hrange⟩
  · exact probeLiveness_isOk.mp ⟨liveness, hprobe⟩ hrange
  · rw [← probeLiveness_ok hprobe, hlive] at hanswer
    simp only [hcrypto] at hanswer
    obtain ⟨claimed, hclaimed, -⟩ := Except.bind_eq_ok.mp hanswer
    exact probeMarkers_isOk.mp ⟨claimed, hclaimed⟩ hrange

/-- **A blob is answered**, indexed or rejected, exactly when no probe that intake reaches is handed
a number out of the range of its column. -/
theorem intake_answers_iff (hrules : LedgerRules ledger globalTtlMs)
    (hclock : ClockInRange env globalTtlMs ctx) {start : BlockContext}
    (hstart : 0 ≤ start.blockTimestamp) (hrun : NodeSteps env ledger start {} ctx db) :
    (∃ db', celestiaZswap env ledger ctx rawBytes db = .ok db' ∧
      ((∃ code, db' = rejectOffer env ctx rawBytes code db) ∨ db.Indexes ledger rawBytes db')) ↔
      ¬ ProbesOutOfRange env ledger ctx rawBytes db := by
  constructor
  · rintro ⟨db', hanswer, -⟩ hrange
    exact celestiaZswap_error hrange ⟨db', hanswer⟩
  · intro hfits
    obtain ⟨db', hanswer⟩ := celestiaZswap_isOk hrules hclock hstart hrun.dated hfits
    exact ⟨db', hanswer, celestiaZswap_answer hanswer⟩

end Answers

namespace RuledOffer

/-- Intents within two hours of the block, and no DUST spends. -/
def wellFormed (tx : OfferTransaction) (tblock : Int) : Except String Unit :=
  if tx.intents.all fun entry => decide (tblock ≤ entry.2.ttl ∧ entry.2.ttl ≤ tblock + 7200000) &&
      entry.2.dustActions.all (·.spends = 0) then .ok ()
  else .error "Intent TTL has expired"

def ledger : Ledger := { OneOffer.ledger with
  wellFormed := wellFormed
  earliestIntentTtl := fun tx => (tx.intents.map (·.2.ttl)).min? }

theorem rules : LedgerRules ledger 7200000 where
  netted := by
    intro tx gives wants h
    cases Except.ok.inj h
    exact ⟨by decide, by decide⟩
  ttl := by
    intro tx tblock ttl hwellFormed hmin
    obtain ⟨entry, hentry, rfl⟩ := List.mem_map.mp (List.min?_mem hmin)
    obtain ⟨hall, -⟩ := ite_eq_iff.mp hwellFormed |>.resolve_right (fun h => nomatch h.2)
    have hentry := List.all_eq_true.mp hall entry hentry
    rw [Bool.and_eq_true, decide_eq_true_eq] at hentry
    exact hentry.1
  dust := by
    intro tx tblock hwellFormed entry hentry dust hdust
    obtain ⟨hall, -⟩ := ite_eq_iff.mp hwellFormed |>.resolve_right (fun h => nomatch h.2)
    have hentry := List.all_eq_true.mp hall entry hentry
    rw [Bool.and_eq_true] at hentry
    have hzero := hentry.2
    rw [Option.mem_def.mp hdust] at hzero
    exact decide_eq_true_eq.mp hzero

theorem clock : ClockInRange OneOffer.env 7200000 OneOffer.block.toBlockContext := by
  constructor <;> decide

/-- The state after the coin of the offer is created. -/
def created : Db := unshieldedCreate ledger OneOffer.block.toBlockContext OneOffer.coin {}

theorem created_steps : NodeSteps OneOffer.env ledger OneOffer.block.toBlockContext {}
    OneOffer.block.toBlockContext created :=
  .input .refl (.unshieldedCreate OneOffer.coin) rfl

/-- A blob whose coin has the output number 2³¹; the ledger counts outputs with 32 bits. -/
def wideLedger : Ledger := { ledger with
  deserialize := fun _ => .ok { intents := [(1, {
    guaranteedUnshieldedOffer := some ⟨[⟨.text "aa", .text "bb", 2 ^ 31⟩], []⟩
    intentHash := fun _ => .text "cc"
    ttl := 7200000 })] } }

theorem wideRules : LedgerRules wideLedger 7200000 := ⟨rules.netted, rules.ttl, rules.dust⟩

end RuledOffer

open OneOffer RuledOffer in
/-- The offer whose coin exists is indexed: no probe is out of range. -/
theorem intake_answers_iff_created :
    ¬ ProbesOutOfRange env RuledOffer.ledger block.toBlockContext [1] created := by
  have hindexed : (celestiaZswap env RuledOffer.ledger block.toBlockContext [1]
      created).toOption.map (·.offerFile.length) = some 1 := by
    decide +kernel
  cases hanswer : celestiaZswap env RuledOffer.ledger block.toBlockContext [1] created with
  | error message =>
    rw [hanswer] at hindexed
    cases hindexed
  | ok db' =>
    exact (intake_answers_iff rules clock (by decide) created_steps).mp
      ⟨db', hanswer, celestiaZswap_answer hanswer⟩

open OneOffer RuledOffer in
/-- In the first state of a node, a blob that spends output 2³¹ fails its block. -/
theorem wide_output_halts : LedgerRules wideLedger 7200000 ∧
    ClockInRange env 7200000 block.toBlockContext ∧
    NodeSteps env wideLedger block.toBlockContext {} block.toBlockContext {} ∧
    (¬ ∃ db', celestiaZswap env wideLedger block.toBlockContext [1] {} = .ok db') ∧
    ∃ message, processBlock env wideLedger {} { block with blobs := [[1]] } = .error message := by
  have hfails : (celestiaZswap env wideLedger block.toBlockContext [1] {}).toOption.isNone := by
    decide +kernel
  have hblock : (processBlock env wideLedger {} { block with blobs := [[1]] }).toOption.isNone := by
    decide +kernel
  refine ⟨wideRules, clock, .refl, ?_, ?_⟩
  · rintro ⟨db', hanswer⟩
    rw [hanswer] at hfails
    cases hfails
  · cases hanswer : processBlock env wideLedger {} { block with blobs := [[1]] } with
    | error message => exact ⟨message, rfl⟩
    | ok db' =>
      rw [hanswer] at hblock
      cases hblock

end ZswapKernel
