import ZswapKernel.Node.OfferLiveness

/-!
# The roots of an unexpired offer

An offer accepted while one of its roots is current gets the window from that block on, but the row
of the root keeps the time of its delivery. A later root event ends the currency, and the root then
goes a window after its delivery, before the offer expires.

* `OfferRun.rootsKept` — a run keeps the roots when every event that ends a currency finds the row
  lasting as long as the offer.
* `unexpired_offer_usable` — such runs never answer `ROOT_UNKNOWN`.
* `superseded_root_dropped` — an event that finds less is followed by a rejection in time.
-/

namespace ZswapKernel

/-- Runs from the acceptance of `offer` in which none of its inputs is spent and every input
`meets` a condition. -/
inductive OfferRun (env : NodeEnv) (ledger : Ledger) (offer : OfferFile) (result : OfferValidation)
    (meets : BlockContext → Db → NodeInput → Prop) : BlockContext → Db → Prop
  | accept {ctx : BlockContext} {db db' : Db} {rawBytes : List UInt8}
    (h : NodeRun env ledger ctx db)
    (hresult : validateZswapOfferBytes ledger env.offerMaxBytes rawBytes = .ok result)
    (hstep : celestiaZswap env ledger ctx rawBytes db = .ok db')
    (hnew : offer ∉ db.offerFile) (hoffer : offer ∈ db'.offerFile) :
    OfferRun env ledger offer result meets ctx db'
  | block {ctx ctx' : BlockContext} {db : Db} (h : OfferRun env ledger offer result meets ctx db)
    (hheight : ctx.blockHeight < ctx'.blockHeight)
    (htime : ctx.blockTimestamp ≤ ctx'.blockTimestamp) :
    OfferRun env ledger offer result meets ctx' db
  | input {ctx : BlockContext} {db db' : Db} (h : OfferRun env ledger offer result meets ctx db)
    (input : NodeInput) (hunspent : ¬ input.Spends ledger result) (hmeets : meets ctx db input)
    (hstep : processInput env ledger ctx db input = .ok db') :
    OfferRun env ledger offer result meets ctx db'

/-- The offer is listed, and its roots pass the check of `offer-validation.ts`. -/
structure OfferFile.Usable (env : NodeEnv) (offer : OfferFile) (result : OfferValidation)
    (ctx : BlockContext) (db : Db) : Prop where
  live : offer ∈ db.offerFile
  roots : ∀ root ∈ result.inputRoots,
    db.knownRoots.isKnownRootLive root (ctx.blockTimestamp - env.rootWindowMs) = true
  not_unknown : ∀ rejection,
    db.offerLiveness result (ctx.blockTimestamp - env.rootWindowMs) = .error rejection →
    rejection.code ≠ .rootUnknown

/-- An event that ends the currency of one of the roots, before the offer expires, finds the window
of its row lasting as long as the offer. -/
def RootsOutlast (window expiresAt : Int) (inputRoots : List String) (ctx : BlockContext)
    (db : Db) : NodeInput → Prop
  | .zswapRoot payloadRoot =>
    canonicalRootHex (payloadRoot.getD "") ≠ "" → ctx.blockTimestamp < expiresAt →
      ∀ row ∈ db.knownRoots.rows, row.root ∈ inputRoots →
        row.root ≠ canonicalRootHex (payloadRoot.getD "") → row.height < ctx.blockHeight →
        db.knownRoots.isCurrent row = true → expiresAt ≤ row.lastSeenMs + window + 1
  | _ => True

/-! ## The rows of a root -/

section Rows

variable {roots : KnownRoots} {row : KnownRoot} {root other : String} {height : Nat}
  {now window expiresAt cutoffMs : Int}

theorem KnownRoots.isCurrent_iff (hrow : row ∈ roots.rows) :
    roots.isCurrent row = true ↔ ∀ other ∈ roots.rows, other.height ≤ row.height := by
  unfold KnownRoots.isCurrent KnownRoots.maxHeight
  cases hmax : (roots.rows.map (·.height)).max? with
  | none =>
    rw [List.max?_eq_none_iff, List.map_eq_nil_iff] at hmax
    rw [hmax] at hrow
    cases hrow
  | some greatest =>
    obtain ⟨hmem, hle⟩ := List.max?_eq_some_iff.mp hmax
    obtain ⟨newest, hnewest, rfl⟩ := List.mem_map.mp hmem
    simp only [Option.any_some, decide_eq_true_eq]
    constructor
    · exact fun hge other hother => (hle _ (List.mem_map_of_mem hother)).trans hge
    · exact fun hall => hall newest hnewest

/-- The root is the primary key. -/
theorem KnownRoots.eq_of_root {other : KnownRoot} (hrow : row ∈ roots.rows)
    (hother : other ∈ roots.rows) (hroot : other.root = row.root) : other = row := by
  have : Std.Symm fun left right : KnownRoot => left.root ≠ right.root := ⟨fun _ _ h => h.symm⟩
  by_contra hdiffer
  exact roots.distinct.forall hother hrow hdiffer hroot

/-- The row `upsert` writes. -/
theorem KnownRoots.mem_upsert : row ∈ (roots.upsert root height now).rows ↔
    (row.root = root ∧ row.height = height ∧ row.lastSeenMs = now ∧ row.firstSeenMs =
      ((roots.rows.find? (·.root = root)).map (·.firstSeenMs)).getD now) ∨
    (row ∈ roots.rows ∧ row.root ≠ root) := by
  unfold KnownRoots.upsert
  rw [BestByKey.mem_replace roots.distinct]
  cases row
  simp only [KnownRoot.mk.injEq]

theorem KnownRoots.upsert_current (root : String) (now : Int)
    (hheights : ∀ row ∈ roots.rows, row.height ≤ height) :
    ∃ row ∈ (roots.upsert root height now).rows, row.root = root ∧ row.height = height ∧
      (roots.upsert root height now).isCurrent row = true := by
  obtain ⟨row, hrow, hroot, hheight⟩ : ∃ row ∈ (roots.upsert root height now).rows,
      row.root = root ∧ row.height = height :=
    ⟨⟨root, height, now, _⟩, KnownRoots.mem_upsert.mpr (.inl ⟨rfl, rfl, rfl, rfl⟩), rfl, rfl⟩
  refine ⟨row, hrow, hroot, hheight, (KnownRoots.isCurrent_iff hrow).mpr fun other hother => ?_⟩
  rw [hheight]
  rcases KnownRoots.mem_upsert.mp hother with ⟨-, hother, -, -⟩ | ⟨hother, -⟩
  · exact hother.le
  · exact hheights other hother

theorem KnownRoots.mem_prune : row ∈ (roots.prune cutoffMs).rows ↔
    row ∈ roots.rows ∧ (cutoffMs ≤ row.lastSeenMs ∨ roots.isCurrent row = true) := by
  unfold KnownRoots.prune
  rw [List.mem_filter]
  refine and_congr_right fun hrow => ?_
  unfold KnownRoots.isCurrent
  cases hmax : roots.maxHeight with
  | none =>
    rw [KnownRoots.maxHeight, List.max?_eq_none_iff, List.map_eq_nil_iff] at hmax
    rw [hmax] at hrow
    cases hrow
  | some greatest => simp [or_iff_not_imp_left]

theorem KnownRoots.isCurrent_prune (hrow : row ∈ roots.rows) (h : roots.isCurrent row = true) :
    (roots.prune cutoffMs).isCurrent row = true := by
  have hkept : row ∈ (roots.prune cutoffMs).rows := KnownRoots.mem_prune.mpr ⟨hrow, .inr h⟩
  refine (KnownRoots.isCurrent_iff hkept).mpr fun other hother => ?_
  exact (KnownRoots.isCurrent_iff hrow).mp h other (KnownRoots.mem_prune.mp hother).1

/-- The root has a row that is current or outlasts the offer. -/
def KnownRoots.Keeps (roots : KnownRoots) (window expiresAt : Int) (root : String) : Prop :=
  ∃ row ∈ roots.rows, row.root = root ∧
    (roots.isCurrent row = true ∨ expiresAt ≤ row.lastSeenMs + window + 1)

theorem KnownRoots.Keeps.live (h : roots.Keeps window expiresAt root) (hnow : now < expiresAt) :
    roots.isKnownRootLive root (now - window) = true := by
  obtain ⟨row, hrow, hroot, hkept⟩ := h
  unfold KnownRoots.isKnownRootLive
  refine List.any_eq_true.mpr ⟨row, hrow, ?_⟩
  rw [Bool.and_eq_true, Bool.or_eq_true, decide_eq_true_eq, decide_eq_true_eq]
  refine ⟨hroot, ?_⟩
  rcases hkept with hcurrent | hlasts
  · exact .inr hcurrent
  · exact .inl (by omega)

/-- **One root event** keeps a root, unless it ends its currency too early. -/
theorem KnownRoots.Keeps.upsert_prune (h : roots.Keeps window expiresAt root)
    (hheights : ∀ row ∈ roots.rows, row.height ≤ height) (hnow : now < expiresAt)
    (hlasts : ∀ row ∈ roots.rows, row.root = root → row.root ≠ other → row.height < height →
      roots.isCurrent row = true → expiresAt ≤ row.lastSeenMs + window + 1) :
    ((roots.upsert other height now).prune (now - window)).Keeps window expiresAt root := by
  by_cases heq : root = other
  · subst heq
    obtain ⟨row, hrow, hroot, -, hcurrent⟩ := KnownRoots.upsert_current root now hheights
    exact ⟨row, KnownRoots.mem_prune.mpr ⟨hrow, .inr hcurrent⟩, hroot,
      .inl (KnownRoots.isCurrent_prune hrow hcurrent)⟩
  obtain ⟨row, hrow, rfl, hkept⟩ := h
  have hstays : row ∈ (roots.upsert other height now).rows :=
    KnownRoots.mem_upsert.mpr (.inr ⟨hrow, heq⟩)
  by_cases hcurrent : (roots.upsert other height now).isCurrent row = true
  · exact ⟨row, KnownRoots.mem_prune.mpr ⟨hstays, .inr hcurrent⟩, rfl,
      .inl (KnownRoots.isCurrent_prune hstays hcurrent)⟩
  -- the event ends the currency of the row, if it had it
  obtain ⟨newest, hnewest, -, hheight, -⟩ :=
    KnownRoots.upsert_current other now hheights
  have hlower : row.height < height := by
    by_contra hge
    refine hcurrent ((KnownRoots.isCurrent_iff hstays).mpr fun x hx => ?_)
    rcases KnownRoots.mem_upsert.mp hx with ⟨-, hx, -, -⟩ | ⟨hx, -⟩
    · exact hx.le.trans (not_lt.mp hge)
    · exact (hheights x hx).trans (not_lt.mp hge)
  have houtlasts : expiresAt ≤ row.lastSeenMs + window + 1 :=
    hkept.elim (hlasts row hrow rfl heq hlower) id
  exact ⟨row, KnownRoots.mem_prune.mpr ⟨hstays, .inl (by omega)⟩, rfl, .inr houtlasts⟩

/-- An event that ends the currency of a row makes the root go a window after its delivery. -/
theorem KnownRoots.upsert_prune_dropped (hheights : ∀ row ∈ roots.rows, row.height ≤ height)
    (hrow : row ∈ roots.rows) (hne : row.root ≠ other) (hheight : row.height < height)
    (hold : row.lastSeenMs < cutoffMs) :
    ((roots.upsert other height now).prune (now - window)).isKnownRootLive row.root cutoffMs =
      false := by
  unfold KnownRoots.isKnownRootLive
  rw [List.any_eq_false]
  intro x hx hlive
  rw [Bool.and_eq_true, Bool.or_eq_true, decide_eq_true_eq, decide_eq_true_eq] at hlive
  obtain ⟨hroot, hlive⟩ := hlive
  obtain ⟨newest, hnewest, -, hnewestHeight, hcurrent⟩ :=
    KnownRoots.upsert_current other now hheights
  rcases KnownRoots.mem_upsert.mp (KnownRoots.mem_prune.mp hx).1 with ⟨hother, -⟩ | ⟨hmem, -⟩
  · exact hne (hroot.symm.trans hother)
  obtain rfl : x = row := KnownRoots.eq_of_root hrow hmem hroot
  rcases hlive with hrecent | hlive
  · omega
  · have hle := (KnownRoots.isCurrent_iff hx).mp hlive newest
      (KnownRoots.mem_prune.mpr ⟨hnewest, .inr hcurrent⟩)
    omega

end Rows

/-! ## Intake -/

section Intake

variable {env : NodeEnv} {ledger : Ledger} {ctx : BlockContext} {db db' : Db}
  {result : OfferValidation} {expiresAt firstSeenAt : Int}

theorem expiryTimestamp_ok {label : String} {value expiry : Int}
    (h : expiryTimestamp label value = .ok expiry) : expiry = value := by
  unfold expiryTimestamp at h
  split at h
  · cases h
    rfl
  · cases h

theorem mapM_expiryTimestamp_ok {label : String} {value limit : Option Int}
    (h : value.mapM (expiryTimestamp label) = .ok limit) : limit = value := by
  cases value with
  | none =>
    cases h
    rfl
  | some ms =>
    cases hms : expiryTimestamp label ms with
    | error message =>
      rw [Option.mapM_some, hms] at h
      cases h
    | ok checked =>
      rw [Option.mapM_some, hms] at h
      cases h
      rw [expiryTimestamp_ok hms]

/-- **The expiry is the earliest limit that applies**, and the fallback where none does. -/
theorem deriveOfferExpiry_ok {root intent dust : Option Int} {fallback expiry : Int}
    (h : deriveOfferExpiry root intent dust fallback = .ok expiry) :
    (root.toList ++ intent.toList ++ dust.toList).min?.getD fallback = expiry := by
  unfold deriveOfferExpiry at h
  obtain ⟨rootMs, hroot, h⟩ := Except.bind_eq_ok.mp h
  obtain ⟨intentMs, hintent, h⟩ := Except.bind_eq_ok.mp h
  obtain ⟨dustMs, hdust, h⟩ := Except.bind_eq_ok.mp h
  rw [mapM_expiryTimestamp_ok hroot, mapM_expiryTimestamp_ok hintent,
    mapM_expiryTimestamp_ok hdust] at h
  cases hmin : (root.toList ++ intent.toList ++ dust.toList).min? with
  | none =>
    rw [hmin] at h
    exact (expiryTimestamp_ok h).symm
  | some earliest =>
    rw [hmin] at h
    exact Except.ok.inj h

/-- No applicable limit is earlier. -/
theorem deriveOfferExpiry_le {root intent dust : Option Int} {fallback expiry limit : Int}
    (h : deriveOfferExpiry root intent dust fallback = .ok expiry)
    (hlimit : limit ∈ root.toList ++ intent.toList ++ dust.toList) : expiry ≤ limit := by
  have hexpiry := deriveOfferExpiry_ok h
  cases hmin : (root.toList ++ intent.toList ++ dust.toList).min? with
  | none =>
    rw [List.min?_eq_none_iff.mp hmin] at hlimit
    cases hlimit
  | some earliest =>
    rw [hmin, Option.getD_some] at hexpiry
    exact hexpiry ▸ (List.min?_eq_some_iff.mp hmin).2 limit hlimit

/-- The limits that the expiry of an offer is derived from. -/
theorem offerTimes_expiry {roots : KnownRoots}
    (h : offerTimes env ledger ctx roots result = .ok (expiresAt, firstSeenAt)) :
    ∃ dust, earliestDustSpendDeadline result.tx env.dustGracePeriodSeconds = .ok dust ∧
      deriveOfferExpiry (roots.rootDeadline result.inputRoots ctx.blockTimestamp env.rootWindowMs)
        (ledger.earliestIntentTtl result.tx) dust
        (ctx.blockTimestamp + env.offerTtlSeconds * 1000) = .ok expiresAt := by
  -- the first sighting does not matter
  have hrest : ∀ firstSeen : Int, (do
      let dust ← earliestDustSpendDeadline result.tx env.dustGracePeriodSeconds
      let expiry ← deriveOfferExpiry ((roots.getOfferRootTiming result.inputRoots
        ctx.blockTimestamp).2.map (· + env.rootWindowMs)) (ledger.earliestIntentTtl result.tx) dust
          (ctx.blockTimestamp + env.offerTtlSeconds * 1000)
      pure (expiry, firstSeen) : Except String (Int × Int)) = .ok (expiresAt, firstSeenAt) →
      ∃ dust, earliestDustSpendDeadline result.tx env.dustGracePeriodSeconds = .ok dust ∧
        deriveOfferExpiry (roots.rootDeadline result.inputRoots ctx.blockTimestamp env.rootWindowMs)
          (ledger.earliestIntentTtl result.tx) dust
          (ctx.blockTimestamp + env.offerTtlSeconds * 1000) = .ok expiresAt := by
    intro firstSeen h
    obtain ⟨dust, hdust, h⟩ := Except.bind_eq_ok.mp h
    obtain ⟨expiry, hexpiry, h⟩ := Except.bind_eq_ok.mp h
    cases h
    exact ⟨dust, hdust, hexpiry⟩
  unfold offerTimes at h
  obtain ⟨blockTime, -, h⟩ := Except.bind_eq_ok.mp h
  simp only at h
  split at h
  all_goals
    obtain ⟨firstSeen, -, h⟩ := Except.bind_eq_ok.mp h
    exact hrest firstSeen h

/-- The expiry is not after the deadline of the roots. -/
theorem offerTimes_le_root (h : offerTimes env ledger ctx db.knownRoots result =
      .ok (expiresAt, firstSeenAt)) {limit : Int}
    (hlimit : db.knownRoots.rootDeadline result.inputRoots ctx.blockTimestamp env.rootWindowMs =
      some limit) : expiresAt ≤ limit := by
  obtain ⟨dust, -, hexpiry⟩ := offerTimes_expiry h
  refine deriveOfferExpiry_le hexpiry ?_
  rw [hlimit]
  exact List.mem_append_left _ (List.mem_append_left _ (List.mem_singleton.mpr rfl))

/-- An accepted offer has all its roots, until it expires. -/
theorem Accepts.keeps {rawBytes : List UInt8} {saved : Db}
    (h : Accepts env ledger ctx rawBytes db result expiresAt firstSeenAt saved) {root : String}
    (hroot : root ∈ result.inputRoots) :
    db.knownRoots.Keeps env.rootWindowMs expiresAt root := by
  have hlive : db.knownRoots.isKnownRootLive root (ctx.blockTimestamp - env.rootWindowMs) = true :=
    (evaluateOfferLiveness_ok h.live).2.2 root hroot
  unfold KnownRoots.isKnownRootLive at hlive
  obtain ⟨row, hrow, hlive⟩ := List.any_eq_true.mp hlive
  rw [Bool.and_eq_true, decide_eq_true_eq] at hlive
  refine ⟨row, hrow, hlive.1, ?_⟩
  by_cases hcurrent : db.knownRoots.isCurrent row = true
  · exact .inl hcurrent
  right
  have hin : row.root ∈ result.inputRoots := hlive.1 ▸ hroot
  obtain ⟨found, hfound, -, hdeadline⟩ :=
    KnownRoots.rootDeadline_eq ctx.blockTimestamp env.rootWindowMs hrow hin
  have hexpiry := offerTimes_le_root h.times hdeadline
  have hle := KnownRoots.rootDeadline_le hdeadline hrow hin
  have hanchor : db.knownRoots.windowAnchor ctx.blockTimestamp row = row.lastSeenMs :=
    if_neg hcurrent
  omega

end Intake

/-! ## The rows of an offer -/

section Offers

variable {env : NodeEnv} {ledger : Ledger} {ctx : BlockContext} {db db' : Db}
  {offer : OfferFile} {result : OfferValidation}

/-- The offer is live, and its child rows list only what it declares. -/
structure OfferFile.Indexed (offer : OfferFile) (result : OfferValidation) (db : Db) : Prop where
  live : offer ∈ db.offerFile
  nullifiers : ∀ row ∈ db.offerNullifiers, row.offerFileId = offer.id →
    row.value ∈ result.nullifiers
  spends : ∀ row ∈ db.offerSpends, row.offerFileId = offer.id → row.value ∈ result.unshieldedSpends

theorem OfferFile.Indexed.archiveOffers (h : offer.Indexed result db) {isMatched : OfferFile → Bool}
    (hkept : isMatched offer = false) (reason : ArchiveReason) (archivedAt : Int) :
    offer.Indexed result (db.archiveOffers isMatched reason archivedAt) where
  live := List.mem_filter.mpr ⟨h.live, by rw [hkept]; rfl⟩
  nullifiers := fun row hrow => h.nullifiers row (List.mem_filter.mp hrow).1
  spends := fun row hrow => h.spends row (List.mem_filter.mp hrow).1

theorem OfferFile.Indexed.congr (h : offer.Indexed result db)
    (hoffers : db'.offerFile = db.offerFile) (hrows : db'.offerNullifiers = db.offerNullifiers)
    (hspends : db'.offerSpends = db.offerSpends) : offer.Indexed result db' where
  live := hoffers ▸ h.live
  nullifiers := hrows ▸ h.nullifiers
  spends := hspends ▸ h.spends

theorem OfferFile.Indexed.competesForNullifier (h : offer.Indexed result db) {nullifier : String}
    (hnot : nullifier ∉ result.nullifiers) : db.competesForNullifier nullifier offer = false := by
  unfold Db.competesForNullifier
  rw [List.any_eq_false]
  intro row hrow hcompetes
  simp only [Bool.and_eq_true, decide_eq_true_eq] at hcompetes
  exact hnot (hcompetes.2 ▸ h.nullifiers row hrow hcompetes.1)

theorem OfferFile.Indexed.competesForCoin (h : offer.Indexed result db) {coin : UnshieldedSpendRef}
    (hnot : coin ∉ result.unshieldedSpends) : db.competesForCoin coin offer = false := by
  unfold Db.competesForCoin
  rw [List.any_eq_false]
  intro row hrow hcompetes
  simp only [Bool.and_eq_true, decide_eq_true_eq] at hcompetes
  exact hnot (hcompetes.2 ▸ h.spends row hrow hcompetes.1)

/-- The rows of another offer are no rows of this one. -/
theorem OfferFile.Indexed.accept (h : offer.Indexed result db) (hsound : db.Sound env ledger)
    {other : OfferValidation} {rawBytes : List UInt8} {expiresAt firstSeenAt : Int} {saved : Db}
    (haccepts : Accepts env ledger ctx rawBytes db other expiresAt firstSeenAt saved) :
    offer.Indexed result saved := by
  obtain ⟨tokens, rfl⟩ := saveOfferFile_ok haccepts.saved
  have hid := hsound.ids offer h.live
  refine ⟨List.mem_append_left _ h.live, fun row hrow hof => ?_, fun row hrow hof => ?_⟩
  · rcases mem_insertRows.mp hrow with hrow | ⟨nullifier, -, rfl⟩
    · exact h.nullifiers row hrow hof
    · exact absurd hof hid.ne'
  · rcases mem_insertRows.mp hrow with hrow | ⟨coin, -, rfl⟩
    · exact h.spends row hrow hof
    · exact absurd hof hid.ne'

/-- The rows of a new offer. -/
theorem Accepts.indexed {rawBytes : List UInt8} {expiresAt firstSeenAt : Int} {saved : Db}
    (h : Accepts env ledger ctx rawBytes db result expiresAt firstSeenAt saved)
    (hsound : db.Sound env ledger) :
    (offerFileRow ledger ctx rawBytes expiresAt firstSeenAt db.nextId).Indexed result saved := by
  obtain ⟨tokens, rfl⟩ := saveOfferFile_ok h.saved
  refine ⟨List.mem_append_right _ (List.mem_singleton.mpr rfl), fun row hrow hof => ?_,
    fun row hrow hof => ?_⟩
  · rcases mem_insertRows.mp hrow with hrow | ⟨nullifier, hmem, rfl⟩
    · exact absurd hof (hsound.nullifierIds row hrow).ne
    · exact hmem
  · rcases mem_insertRows.mp hrow with hrow | ⟨coin, hmem, rfl⟩
    · exact absurd hof (hsound.spendIds row hrow).ne
    · exact hmem

/-- An input that spends nothing of the offer leaves it live until it expires. -/
theorem OfferFile.Indexed.processInput (h : offer.Indexed result db) (hsound : db.Sound env ledger)
    {input : NodeInput} (hunspent : ¬ input.Spends ledger result)
    (hexpires : ctx.blockTimestamp < offer.metadataExpiresAt)
    (hstep : ZswapKernel.processInput env ledger ctx db input = .ok db') :
    offer.Indexed result db' := by
  cases input with
  | celestiaZswap suppliedValue =>
    rcases celestiaZswap_ok hstep with ⟨code, rfl⟩ | ⟨_, _, _, saved, haccepts, rfl⟩
    · exact h.congr rfl rfl rfl
    · exact (h.accept hsound haccepts).congr rfl rfl rfl
  | zswapEvent event =>
    cases hstep
    cases event with
    | commitment commitment txHash mtIndex => exact h.congr rfl rfl rfl
    | nullifier nullifier txHash =>
      obtain ⟨marked, hevent⟩ := zswapEvent_nullifier ctx nullifier txHash db
      have harchived := h.archiveOffers (h.competesForNullifier hunspent) .consumed
        ctx.blockTimestamp
      rw [hevent]
      cases marked <;> exact harchived.congr rfl rfl rfl
  | unshieldedSpend payload =>
    cases hstep
    cases hcoin : payload.coin ledger with
    | none =>
      unfold unshieldedSpend
      rw [hcoin]
      exact h
    | some coin =>
      have hnot : coin ∉ result.unshieldedSpends := fun hmem => hunspent ⟨coin, hmem, hcoin⟩
      rw [unshieldedSpend_coin hcoin]
      have harchived := h.archiveOffers (h.competesForCoin hnot) .consumed ctx.blockTimestamp
      exact harchived.congr rfl rfl rfl
  | unshieldedCreate payload =>
    cases hstep
    unfold unshieldedCreate
    split
    · exact h
    · exact h.congr rfl rfl rfl
  | zswapRoot root =>
    cases hstep
    unfold zswapRoot
    simp only
    split
    · exact h
    · exact h.congr rfl rfl rfl
  | ttlCleanup offerId =>
    obtain ⟨cutoff, hcutoff, hstep⟩ := Except.bind_eq_ok.mp hstep
    cases hstep
    rw [expiryTimestamp_ok hcutoff]
    refine h.archiveOffers ?_ _ _
    rw [decide_eq_false (not_le.mpr hexpires), Bool.and_false]

end Offers

/-! ## Every run -/

section Run

variable {env : NodeEnv} {ledger : Ledger} {ctx ctx' : BlockContext} {db db' : Db}
  {offer : OfferFile} {result : OfferValidation}
  {meets : BlockContext → Db → NodeInput → Prop}

/-- Only a root event writes the known roots. -/
theorem knownRoots_processInput {input : NodeInput}
    (hstep : processInput env ledger ctx db input = .ok db') :
    db'.knownRoots = db.knownRoots ∨
    ∃ payloadRoot, input = .zswapRoot payloadRoot ∧ canonicalRootHex (payloadRoot.getD "") ≠ "" ∧
      db'.knownRoots = (db.knownRoots.upsert (canonicalRootHex (payloadRoot.getD ""))
        ctx.blockHeight ctx.blockTimestamp).prune (ctx.blockTimestamp - env.rootWindowMs) := by
  cases input with
  | celestiaZswap suppliedValue =>
    left
    rcases celestiaZswap_ok hstep with ⟨code, rfl⟩ | ⟨_, _, _, saved, haccepts, rfl⟩
    · rfl
    · obtain ⟨tokens, rfl⟩ := saveOfferFile_ok haccepts.saved
      rfl
  | zswapEvent event =>
    cases hstep
    left
    cases event with
    | commitment commitment txHash mtIndex => rfl
    | nullifier nullifier txHash =>
      obtain ⟨marked, hevent⟩ := zswapEvent_nullifier ctx nullifier txHash db
      rw [hevent]
      cases marked <;> rfl
  | unshieldedSpend payload =>
    cases hstep
    left
    unfold unshieldedSpend
    split <;> rfl
  | unshieldedCreate payload =>
    cases hstep
    left
    unfold unshieldedCreate
    split <;> rfl
  | zswapRoot payloadRoot =>
    cases hstep
    unfold zswapRoot
    simp only
    split
    · exact .inl rfl
    · rename_i hroot
      exact .inr ⟨payloadRoot, rfl, hroot, rfl⟩
  | ttlCleanup offerId =>
    obtain ⟨cutoff, -, hstep⟩ := Except.bind_eq_ok.mp hstep
    cases hstep
    exact .inl rfl

theorem NodeRun.heights (h : NodeRun env ledger ctx db) :
    ∀ row ∈ db.knownRoots.rows, row.height ≤ ctx.blockHeight := by
  induction h with
  | start ctx => exact fun row hrow => absurd hrow List.not_mem_nil
  | block _ hheight _ ih => exact fun row hrow => (ih row hrow).trans hheight.le
  | input _ input hstep ih =>
    rcases knownRoots_processInput hstep with hsame | ⟨payloadRoot, -, -, hroots⟩
    · rwa [hsame]
    · rw [hroots]
      intro row hrow
      rcases KnownRoots.mem_upsert.mp (KnownRoots.mem_prune.mp hrow).1 with ⟨-, hrow, -⟩ | ⟨hrow, -⟩
      · exact hrow.le
      · exact ih row hrow

theorem OfferRun.nodeRun (h : OfferRun env ledger offer result meets ctx db) :
    NodeRun env ledger ctx db := by
  induction h with
  | accept h _ hstep _ _ => exact h.input (.celestiaZswap _) hstep
  | block _ hheight htime ih => exact ih.block hheight htime
  | input _ input _ _ hstep ih => exact ih.input input hstep

/-- What an offer that enters the live table was accepted with. -/
theorem celestiaZswap_new {rawBytes : List UInt8}
    (hresult : validateZswapOfferBytes ledger env.offerMaxBytes rawBytes = .ok result)
    (hstep : celestiaZswap env ledger ctx rawBytes db = .ok db') (hnew : offer ∉ db.offerFile)
    (hoffer : offer ∈ db'.offerFile) : ∃ expiresAt firstSeenAt saved,
      Accepts env ledger ctx rawBytes db result expiresAt firstSeenAt saved ∧
      offer = offerFileRow ledger ctx rawBytes expiresAt firstSeenAt db.nextId ∧
      db' = { saved with scheduled := saved.scheduled ++ [(expiresAt, db.nextId)] } := by
  rcases celestiaZswap_ok hstep with
    ⟨code, rfl⟩ | ⟨other, expiresAt, firstSeenAt, saved, haccepts, rfl⟩
  · exact absurd hoffer hnew
  · have hother : other = result := Except.ok.inj (haccepts.validated.symm.trans hresult)
    subst hother
    refine ⟨expiresAt, firstSeenAt, saved, haccepts, ?_, rfl⟩
    obtain ⟨tokens, rfl⟩ := saveOfferFile_ok haccepts.saved
    rcases List.mem_append.mp hoffer with hoffer | hoffer
    · exact absurd hoffer hnew
    · exact List.mem_singleton.mp hoffer

/-- The offer stays live until it expires. -/
theorem OfferRun.indexed (h : OfferRun env ledger offer result meets ctx db)
    (hexpires : ctx.blockTimestamp < offer.metadataExpiresAt) : offer.Indexed result db := by
  induction h with
  | accept h hresult hstep hnew hoffer =>
    obtain ⟨expiresAt, firstSeenAt, saved, haccepts, rfl, rfl⟩ :=
      celestiaZswap_new hresult hstep hnew hoffer
    exact (haccepts.indexed h.sound).congr rfl rfl rfl
  | block _ _ htime ih => exact ih (lt_of_le_of_lt htime hexpires)
  | input h input hunspent _ hstep ih =>
    exact (ih hexpires).processInput h.nodeRun.sound hunspent hexpires hstep

/-- **Every step that meets the condition keeps the roots of the offer**, until it expires. -/
theorem OfferRun.rootsKept (h : OfferRun env ledger offer result
      (RootsOutlast env.rootWindowMs offer.metadataExpiresAt result.inputRoots) ctx db)
    (hexpires : ctx.blockTimestamp < offer.metadataExpiresAt) : ∀ root ∈ result.inputRoots,
      db.knownRoots.Keeps env.rootWindowMs offer.metadataExpiresAt root := by
  induction h with
  | accept h hresult hstep hnew hoffer =>
    obtain ⟨expiresAt, firstSeenAt, saved, haccepts, rfl, rfl⟩ :=
      celestiaZswap_new hresult hstep hnew hoffer
    intro root hroot
    have hkeeps := haccepts.keeps hroot
    obtain ⟨tokens, rfl⟩ := saveOfferFile_ok haccepts.saved
    exact hkeeps
  | block _ _ htime ih => exact ih (lt_of_le_of_lt htime hexpires)
  | input h input _ hmeets hstep ih =>
    intro root hroot
    have hkeeps := ih hexpires root hroot
    rcases knownRoots_processInput hstep with hsame | ⟨payloadRoot, rfl, hnonempty, hroots⟩
    · rwa [hsame]
    · rw [hroots]
      refine hkeeps.upsert_prune h.nodeRun.heights hexpires ?_
      intro row hrow heq hne hheight hcurrent
      exact hmeets hnonempty hexpires row hrow (heq ▸ hroot) hne hheight hcurrent

theorem offerLiveness_code {rootCutoffMs : Int} {rejection : OfferRejection}
    (hroots : ∀ root ∈ result.inputRoots, db.knownRoots.isKnownRootLive root rootCutoffMs = true)
    (h : db.offerLiveness result rootCutoffMs = .error rejection) :
    rejection.code ≠ .rootUnknown := by
  unfold Db.offerLiveness evaluateOfferLiveness at h
  split at h
  · cases h
  · rename_i descriptor hfind
    cases h
    cases descriptor with
    | nullifier nullifier => exact fun hcode => nomatch hcode
    | unshielded ref => exact fun hcode => nomatch hcode
    | root root =>
      have hdead := List.find?_some hfind
      have hmem := List.mem_of_find?_eq_some hfind
      have hroot : root ∈ result.inputRoots := by
        simpa [orderedOfferLivenessDescriptors] using hmem
      rw [Db.isLive, hroots root hroot] at hdead
      cases hdead

end Run

/-- **A live unexpired offer stays usable** along every run whose root events leave its roots the
window they need. -/
theorem unexpired_offer_usable {env : NodeEnv} {ledger : Ledger} {offer : OfferFile}
    {result : OfferValidation} {ctx : BlockContext} {db : Db}
    (h : OfferRun env ledger offer result
      (RootsOutlast env.rootWindowMs offer.metadataExpiresAt result.inputRoots) ctx db)
    (hexpires : ctx.blockTimestamp < offer.metadataExpiresAt) : offer.Usable env result ctx db := by
  have hlive : ∀ root ∈ result.inputRoots,
      db.knownRoots.isKnownRootLive root (ctx.blockTimestamp - env.rootWindowMs) = true :=
    fun root hroot => (h.rootsKept hexpires root hroot).live hexpires
  exact ⟨(h.indexed hexpires).live, hlive, fun rejection => offerLiveness_code hlive⟩

/-- An event that leaves a root less is followed by a rejection: at some time before the offer
expires, when nothing else happens. -/
theorem superseded_root_dropped {env : NodeEnv} {ledger : Ledger} {offer : OfferFile}
    {result : OfferValidation} {ctx : BlockContext} {db : Db}
    (h : NodeRun env ledger ctx db) {input : NodeInput}
    (hbreaks : ¬ RootsOutlast env.rootWindowMs offer.metadataExpiresAt result.inputRoots ctx db
      input) {db' : Db} (hstep : processInput env ledger ctx db input = .ok db') :
    ∃ t, ctx.blockTimestamp ≤ t ∧ t < offer.metadataExpiresAt ∧
      ∃ root ∈ result.inputRoots,
        db'.knownRoots.isKnownRootLive root (t - env.rootWindowMs) = false := by
  cases input with
  | zswapRoot payloadRoot =>
    unfold RootsOutlast at hbreaks
    push Not at hbreaks
    obtain ⟨hnonempty, hexpires, row, hrow, hin, hne, hheight, -, hlate⟩ := hbreaks
    cases hstep
    refine ⟨max ctx.blockTimestamp (row.lastSeenMs + env.rootWindowMs + 1), le_max_left _ _,
      max_lt hexpires (by omega), row.root, hin, ?_⟩
    unfold zswapRoot
    simp only [if_neg hnonempty]
    exact KnownRoots.upsert_prune_dropped h.heights hrow hne hheight (by omega)
  | _ => exact absurd trivial hbreaks

/-! ## A root superseded after intake -/

namespace SupersededAfterIntake

/-- The tag of an input, its nullifier, what stands before the root, and the root `04`. -/
def serialized : List UInt8 :=
  pinnedInputTag.toList.map (fun c => UInt8.ofNat c.toNat) ++ List.replicate 32 1 ++
    List.replicate rootGapAfterNullifier 0 ++ [4]

def input : ZswapInput where
  nullifier := .text (bytesToHex (List.replicate 32 1))
  serialized := serialized

def ledger : Ledger := { OneOffer.ledger with
  deserialize := fun _ => .ok { guaranteedOffer := some { inputs := [input] } }
  earliestIntentTtl := fun _ => none }

def env : NodeEnv := OneOffer.env

/-- Root `04` arrives, an offer 1000 s later, root `08` after the offer, and a block 4000 s after
root `04`. -/
def first : BlockContext := ⟨1, 0⟩
def second : BlockContext := ⟨2, 1000000⟩
def third : BlockContext := ⟨3, 1006000⟩
def fourth : BlockContext := ⟨4, 4000000⟩

def rooted : Db := zswapRoot env first (some "04") {}

theorem rooted_run : NodeRun env ledger second rooted :=
  ((NodeRun.start first).input (.zswapRoot (some "04")) rfl).block (by decide) (by decide)

theorem result_roots : (validateZswapOfferBytes ledger env.offerMaxBytes [1]).toOption.map
    (·.inputRoots) = some ["04"] := by
  decide +kernel

theorem offer_expiry : (celestiaZswap env ledger second [1] rooted).toOption.map
    (fun db => (db.offerFile.map (·.metadataExpiresAt), db.knownRoots.rows)) =
      some ([4600000], rooted.knownRoots.rows) := by
  decide +kernel

theorem root_dropped : ((rooted.knownRoots.upsert "08" 3 1006000).prune
    (1006000 - env.rootWindowMs)).isKnownRootLive "04" (4000000 - env.rootWindowMs) = false := by
  decide +kernel

/-- The offer is accepted. -/
theorem accepted : ∃ offer result db, celestiaZswap env ledger second [1] rooted = .ok db ∧
    offer.metadataExpiresAt = 4600000 ∧ result.inputRoots = ["04"] ∧
    db.knownRoots = rooted.knownRoots ∧
    ∀ meets, OfferRun env ledger offer result meets second db := by
  obtain ⟨db, hdb, htables⟩ := Option.map_eq_some_iff.mp offer_expiry
  obtain ⟨result, hresult, hinputRoots⟩ := Option.map_eq_some_iff.mp result_roots
  have hstep := Except.eq_ok_of_toOption hdb
  have hvalid := Except.eq_ok_of_toOption hresult
  obtain ⟨hexpiries, hrows⟩ := Prod.mk.inj htables
  obtain ⟨offer, hoffers, hexpiry⟩ := List.map_eq_singleton_iff.mp hexpiries
  refine ⟨offer, result, db, hstep, hexpiry, hinputRoots, ?_, fun meets => ?_⟩
  · cases hroots : db.knownRoots
    rw [hroots] at hrows
    cases hrows
    rfl
  · exact .accept rooted_run hvalid hstep List.not_mem_nil (hoffers ▸ List.mem_singleton.mpr rfl)

end SupersededAfterIntake

open SupersededAfterIntake in
/-- The offer expires at 4600 s, and from 3600 s on its root is unknown. -/
theorem live_offer_root_unknown : ∃ offer result db,
    OfferRun env ledger offer result (fun _ _ _ => True) fourth db ∧
    fourth.blockTimestamp < offer.metadataExpiresAt ∧ ¬ offer.Usable env result fourth db := by
  obtain ⟨offer, result, db, -, hexpiry, hinputRoots, hroots, hrun⟩ := accepted
  refine ⟨offer, result, zswapRoot env third (some "08") db, ?_, ?_, fun husable => ?_⟩
  · have hthird := (hrun fun _ _ _ => True).block
      (show second.blockHeight < third.blockHeight by decide) (by decide)
    exact (hthird.input (.zswapRoot (some "08")) id trivial rfl).block (by decide) (by decide)
  · rw [hexpiry]
    decide
  · have hlive := husable.roots "04" (hinputRoots ▸ List.mem_singleton.mpr rfl)
    have hafter : (zswapRoot env third (some "08") db).knownRoots =
        (rooted.knownRoots.upsert "08" 3 1006000).prune (1006000 - env.rootWindowMs) := by
      rw [← hroots]
      rfl
    rw [hafter] at hlive
    exact absurd (hlive.symm.trans root_dropped) (by decide)

open SupersededAfterIntake in
/-- When root `04` is delivered again instead, the offer is usable to the end. -/
theorem unexpired_offer_usable_redelivered : ∃ offer result db,
    OfferRun env ledger offer result (fun _ _ _ => True) fourth db ∧
    fourth.blockTimestamp < offer.metadataExpiresAt ∧ result.inputRoots = ["04"] ∧
    offer.Usable env result fourth db := by
  obtain ⟨offer, result, db, -, hexpiry, hinputRoots, -, hrun⟩ := accepted
  have hexpires : fourth.blockTimestamp < offer.metadataExpiresAt := by
    rw [hexpiry]
    decide
  have hredelivered : ∀ meets : BlockContext → Db → NodeInput → Prop,
      meets third db (.zswapRoot (some "04")) →
      OfferRun env ledger offer result meets fourth (zswapRoot env third (some "04") db) := by
    intro meets hmeets
    have hthird := (hrun meets).block (show second.blockHeight < third.blockHeight by decide)
      (by decide)
    exact (hthird.input (.zswapRoot (some "04")) id hmeets rfl).block (by decide) (by decide)
  refine ⟨offer, result, _, hredelivered _ trivial, hexpires, hinputRoots, ?_⟩
  refine unexpired_offer_usable (hredelivered _ ?_) hexpires
  intro _ _ row _ hin hne
  rw [hinputRoots, List.mem_singleton] at hin
  exact absurd (hin.trans (by decide +kernel)) hne

end ZswapKernel
