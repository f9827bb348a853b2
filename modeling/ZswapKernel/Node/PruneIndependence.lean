import ZswapKernel.Node.RootRetention

/-!
# Expiry and pruning

The expiry of an accepted offer lies between its block and every limit that applies to it. Calls of
`pruneKnownRoots` at any points of a run change no verdict of `isKnownRootLive` and no window anchor
of accepted roots. The first sighting they can change: a root that was pruned and is delivered again
is a new row, though `upsertKnownRootWithFirstSeen` never moves the first sighting of a row.

* `deriveOfferExpiry_ok` — the expiry is the earliest limit.
* `KnownRoots.PrunedFrom` — a table against the same table with more pruning.
* `PruningRun.prunedFrom` — the two tables along two runs.
* `PruningRun.same` — the two runs, while every root that is delivered again is still live.
* `expiry_prune_independent` — both halves.
-/

namespace ZswapKernel

/-! ## The windows -/

def rootWindowDefaultSeconds (networkId : String) : Int :=
  if toLowerCase networkId = "stagenet" then 60 * 60 * 24 * 14 else 3600

/-- `resolveRootWindowSeconds`; `none` is a text that is no integer. -/
def resolveRootWindowSeconds (networkId : String) (envValue : Option Int) : Int :=
  match envValue with
  | some parsed => if 0 < parsed then parsed else rootWindowDefaultSeconds networkId
  | none => rootWindowDefaultSeconds networkId

def resolveOfferTtlSeconds (rootWindowSeconds : Int) (envValue : Option Int) : Int :=
  match envValue with
  | some parsed => if 0 < parsed then parsed else rootWindowSeconds
  | none => rootWindowSeconds

/-- The windows come from `env.ts`. -/
structure NodeEnv.Resolved (env : NodeEnv) : Prop where
  rootWindow : ∃ networkId envValue,
    env.rootWindowSeconds = resolveRootWindowSeconds networkId envValue
  offerTtl : ∃ envValue,
    env.offerTtlSeconds = resolveOfferTtlSeconds env.rootWindowSeconds envValue

theorem rootWindowDefaultSeconds_pos (networkId : String) :
    0 < rootWindowDefaultSeconds networkId := by
  unfold rootWindowDefaultSeconds
  split <;> decide

theorem NodeEnv.Resolved.rootWindow_pos {env : NodeEnv} (h : env.Resolved) :
    0 < env.rootWindowSeconds := by
  obtain ⟨networkId, envValue, hwindow⟩ := h.rootWindow
  have hdefault := rootWindowDefaultSeconds_pos networkId
  rw [hwindow]
  unfold resolveRootWindowSeconds
  split
  · split
    · assumption
    · exact hdefault
  · exact hdefault

theorem NodeEnv.Resolved.offerTtl_pos {env : NodeEnv} (h : env.Resolved) :
    0 < env.offerTtlSeconds := by
  obtain ⟨envValue, httl⟩ := h.offerTtl
  have hwindow := h.rootWindow_pos
  rw [httl]
  unfold resolveOfferTtlSeconds
  split
  · split
    · assumption
    · exact hwindow
  · exact hwindow

/-- What the ledger refuses, as the source relies on it. -/
structure ExpiryRules (env : NodeEnv) (ledger : Ledger) : Prop where
  /-- `tblock <= ttl`, of every intent. -/
  intent : ∀ tx tblock ttl, ledger.wellFormed tx tblock = .ok () →
    ledger.earliestIntentTtl tx = some ttl → tblock ≤ ttl
  /-- `tblock <= ctime + grace`, of every DUST spend. -/
  dust : ∀ tx tblock, ledger.wellFormed tx tblock = .ok () → ∀ entry ∈ tx.intents,
    ∀ dust ∈ entry.2.dustActions, 0 < dust.spends →
      tblock ≤ dust.ctime + env.dustGracePeriodSeconds * 1000

/-! ## The limits of an offer -/

section Limits

variable {env : NodeEnv} {ledger : Ledger} {ctx : BlockContext} {db db' : Db}
  {rawBytes : List UInt8} {result : OfferValidation} {expiresAt firstSeenAt : Int} {saved : Db}

/-- The DUST actions of a transaction that spend. -/
def dustSpends (tx : OfferTransaction) : List DustActions :=
  tx.intents.filterMap fun (_, intent) => intent.dustActions.filter (0 < ·.spends)

theorem mem_dustSpends {tx : OfferTransaction} {dust : DustActions} : dust ∈ dustSpends tx ↔
    ∃ entry ∈ tx.intents, dust ∈ entry.2.dustActions ∧ 0 < dust.spends := by
  unfold dustSpends
  rw [List.mem_filterMap]
  refine exists_congr fun entry => and_congr_right fun _ => ?_
  rw [Option.filter_eq_some_iff, decide_eq_true_eq, Option.mem_def]

/-- The deadlines of the DUST spends. -/
theorem earliestDustSpendDeadline_ok {tx : OfferTransaction} {graceSeconds : Int}
    {deadline : Option Int} (h : earliestDustSpendDeadline tx graceSeconds = .ok deadline) :
    deadline = ((dustSpends tx).map (·.ctime + graceSeconds * 1000)).min? := by
  have hall : ∀ {spending : List DustActions} {deadlines : List Int},
      spending.mapM (fun dust => do
        let ctime ← expiryTimestamp "dust" dust.ctime
        return ctime + graceSeconds * 1000) = .ok deadlines →
      deadlines = spending.map (·.ctime + graceSeconds * 1000) := by
    intro spending
    induction spending with
    | nil =>
      intro deadlines h
      exact (Except.ok.inj h).symm
    | cons dust spending ih =>
      intro deadlines h
      rw [List.mapM_cons] at h
      obtain ⟨first, hfirst, h⟩ := Except.bind_eq_ok.mp h
      obtain ⟨rest, hrest, h⟩ := Except.bind_eq_ok.mp h
      obtain ⟨ctime, hctime, hfirst⟩ := Except.bind_eq_ok.mp hfirst
      cases h
      rw [List.map_cons, ih hrest, ← Except.ok.inj hfirst, expiryTimestamp_ok hctime]
  unfold earliestDustSpendDeadline at h
  obtain ⟨deadlines, hdeadlines, h⟩ := Except.bind_eq_ok.mp h
  rw [← Except.ok.inj h, hall hdeadlines]
  rfl

theorem KnownRoots.isKnownRootLive_iff {roots : KnownRoots} {root : String} {cutoffMs : Int} :
    roots.isKnownRootLive root cutoffMs = true ↔ ∃ row ∈ roots.rows, row.root = root ∧
      (cutoffMs ≤ row.lastSeenMs ∨ roots.isCurrent row = true) := by
  unfold KnownRoots.isKnownRootLive
  rw [List.any_eq_true]
  refine exists_congr fun row => and_congr_right fun _ => ?_
  rw [Bool.and_eq_true, Bool.or_eq_true, decide_eq_true_eq, decide_eq_true_eq]

/-- An accepted root is live: its anchor and the window reach the block. -/
theorem KnownRoots.windowAnchor_live {roots : KnownRoots} {row : KnownRoot} {now window : Int}
    (hwindow : 0 ≤ window) (hrow : row ∈ roots.rows)
    (hlive : roots.isKnownRootLive row.root (now - window) = true) :
    now ≤ roots.windowAnchor now row + window := by
  obtain ⟨found, hfound, hroot, hlasts⟩ := KnownRoots.isKnownRootLive_iff.mp hlive
  obtain rfl : found = row := KnownRoots.eq_of_root hrow hfound hroot
  unfold KnownRoots.windowAnchor
  split
  · have := le_max_right found.lastSeenMs now
    omega
  · rename_i hcurrent
    rcases hlasts with hrecent | hlasts
    · omega
    · exact absurd hlasts hcurrent

/-- The expiry of an offer, between its block and the limits that apply to it. -/
structure ExpiryBounds (env : NodeEnv) (ledger : Ledger) (ctx : BlockContext) (roots : KnownRoots)
    (result : OfferValidation) (expiresAt : Int) : Prop where
  notPast : ctx.blockTimestamp ≤ expiresAt
  /-- Every root has an anchor. -/
  rooted : ∀ root ∈ result.inputRoots, ∃ row ∈ roots.rows, row.root = root
  rootWindow : ∀ row ∈ roots.rows, row.root ∈ result.inputRoots →
    expiresAt ≤ roots.windowAnchor ctx.blockTimestamp row + env.rootWindowMs
  intentTtl : ∀ ttl ∈ ledger.earliestIntentTtl result.tx, expiresAt ≤ ttl
  dustWindow : ∀ entry ∈ result.tx.intents, ∀ dust ∈ entry.2.dustActions, 0 < dust.spends →
    expiresAt ≤ dust.ctime + env.dustGracePeriodSeconds * 1000

/-- **The stored expiry is bounded.** -/
theorem Accepts.expiryBounds (hrules : ExpiryRules env ledger) (henv : env.Resolved)
    (h : Accepts env ledger ctx rawBytes db result expiresAt firstSeenAt saved)
    (hcrypto : verifyOfferCrypto ledger result.tx ctx.blockTimestamp = .ok ()) :
    ExpiryBounds env ledger ctx db.knownRoots result expiresAt := by
  have hwellFormed : ledger.wellFormed result.tx ctx.blockTimestamp = .ok () := by
    unfold verifyOfferCrypto at hcrypto
    split at hcrypto
    · assumption
    · cases hcrypto
  have hroots : ∀ root ∈ result.inputRoots,
      db.knownRoots.isKnownRootLive root (ctx.blockTimestamp - env.rootWindowMs) = true :=
    fun root hroot => (evaluateOfferLiveness_ok h.live).2.2 root hroot
  have hwindow : 0 ≤ env.rootWindowMs := by
    have := henv.rootWindow_pos
    unfold NodeEnv.rootWindowMs
    omega
  obtain ⟨dust, hdust, hexpiry⟩ := offerTimes_expiry h.times
  have hle : ∀ limit ∈ (db.knownRoots.rootDeadline result.inputRoots ctx.blockTimestamp
      env.rootWindowMs).toList ++ (ledger.earliestIntentTtl result.tx).toList ++ dust.toList,
      expiresAt ≤ limit := fun _ => deriveOfferExpiry_le hexpiry
  have hdeadline := earliestDustSpendDeadline_ok hdust
  refine ⟨?_, fun root hroot => ?_, fun row hrow hroot => ?_, fun ttl httl => ?_,
    fun entry hentry action haction hspends => ?_⟩
  · have hearliest := deriveOfferExpiry_ok hexpiry
    cases hmin : ((db.knownRoots.rootDeadline result.inputRoots ctx.blockTimestamp
        env.rootWindowMs).toList ++ (ledger.earliestIntentTtl result.tx).toList ++
        dust.toList).min? with
    | none =>
      rw [hmin, Option.getD_none] at hearliest
      have := henv.offerTtl_pos
      omega
    | some earliest =>
      rw [hmin, Option.getD_some] at hearliest
      rw [← hearliest]
      -- the earliest limit is one of them
      rcases List.mem_append.mp (List.min?_mem hmin) with hmem | hmem
      · rcases List.mem_append.mp hmem with hmem | hmem
        · obtain ⟨anchor, hanchor, rfl⟩ := Option.map_eq_some_iff.mp (Option.mem_toList.mp hmem)
          obtain ⟨row, hrow, rfl⟩ := List.mem_map.mp (List.min?_mem hanchor)
          obtain ⟨hrow, hin⟩ := List.mem_filter.mp hrow
          exact KnownRoots.windowAnchor_live hwindow hrow (hroots _ (of_decide_eq_true hin))
        · exact hrules.intent _ _ _ hwellFormed (Option.mem_toList.mp hmem)
      · rw [hdeadline] at hmem
        obtain ⟨action, haction, rfl⟩ := List.mem_map.mp
          (List.min?_mem (Option.mem_toList.mp hmem))
        obtain ⟨entry, hentry, hdustActions, hspends⟩ := mem_dustSpends.mp haction
        exact hrules.dust _ _ hwellFormed entry hentry action hdustActions hspends
  · obtain ⟨row, hrow, hsame, -⟩ := KnownRoots.isKnownRootLive_iff.mp (hroots root hroot)
    exact ⟨row, hrow, hsame⟩
  · obtain ⟨found, -, -, hlimit⟩ := KnownRoots.rootDeadline_eq ctx.blockTimestamp env.rootWindowMs
      hrow hroot
    exact (offerTimes_le_root h.times hlimit).trans (KnownRoots.rootDeadline_le hlimit hrow hroot)
  · refine hle ttl (List.mem_append_left _ (List.mem_append_right _ ?_))
    exact Option.mem_toList.mpr httl
  · have hmem : action.ctime + env.dustGracePeriodSeconds * 1000 ∈
        (dustSpends result.tx).map (·.ctime + env.dustGracePeriodSeconds * 1000) :=
      List.mem_map_of_mem (mem_dustSpends.mpr ⟨entry, hentry, haction, hspends⟩)
    cases hmin : ((dustSpends result.tx).map
        (·.ctime + env.dustGracePeriodSeconds * 1000)).min? with
    | none =>
      rw [List.min?_eq_none_iff.mp hmin] at hmem
      cases hmem
    | some earliest =>
      rw [hmin] at hdeadline
      refine (hle earliest ?_).trans ((List.min?_eq_some_iff.mp hmin).2 _ hmem)
      rw [hdeadline]
      exact List.mem_append_right _ (List.mem_singleton.mpr rfl)

end Limits

/-! ## A table with more pruning -/

/-- Two rows of one delivery; the first sightings may differ. -/
structure KnownRoot.SameDelivery (row other : KnownRoot) : Prop where
  root : other.root = row.root
  height : other.height = row.height
  lastSeen : other.lastSeenMs = row.lastSeenMs

namespace KnownRoots

variable {full part roots : KnownRoots} {cutoffMs cutoff' now window : Int} {root : String}
  {height : Nat}

/-- `part` misses only rows of `full` that no query from the cutoff on accepts. -/
structure PrunedFrom (cutoffMs : Int) (full part : KnownRoots) : Prop where
  sound : ∀ row ∈ part.rows, ∃ old ∈ full.rows, old.SameDelivery row
  missing : ∀ old ∈ full.rows, (∃ row ∈ part.rows, old.SameDelivery row) ∨
    (old.lastSeenMs < cutoffMs ∧ full.isCurrent old = false)

theorem isCurrent_congr {row other : KnownRoot} (hmax : part.maxHeight = full.maxHeight)
    (h : other.SameDelivery row) : part.isCurrent row = full.isCurrent other := by
  unfold isCurrent
  rw [hmax, h.height]

namespace PrunedFrom

theorem refl (cutoffMs : Int) (roots : KnownRoots) : PrunedFrom cutoffMs roots roots :=
  ⟨fun row hrow => ⟨row, hrow, rfl, rfl, rfl⟩, fun row hrow => .inl ⟨row, hrow, rfl, rfl, rfl⟩⟩

theorem mono (h : PrunedFrom cutoffMs full part) (hcutoff : cutoffMs ≤ cutoff') :
    PrunedFrom cutoff' full part :=
  ⟨h.sound, fun old hold => (h.missing old hold).imp id fun ⟨hlast, hcurrent⟩ =>
    ⟨hlast.trans_le hcutoff, hcurrent⟩⟩

/-- The row of the greatest height is never pruned. -/
theorem maxHeight_eq (h : PrunedFrom cutoffMs full part) : part.maxHeight = full.maxHeight := by
  unfold maxHeight
  cases hmax : (full.rows.map (·.height)).max? with
  | none =>
    rw [List.max?_eq_none_iff, List.map_eq_nil_iff] at hmax ⊢
    rw [List.eq_nil_iff_forall_not_mem]
    intro row hrow
    obtain ⟨old, hold, -⟩ := h.sound row hrow
    rw [hmax] at hold
    cases hold
  | some greatest =>
    obtain ⟨hmem, hle⟩ := List.max?_eq_some_iff.mp hmax
    obtain ⟨newest, hnewest, rfl⟩ := List.mem_map.mp hmem
    have hcurrent : full.isCurrent newest = true :=
      (isCurrent_iff hnewest).mpr fun other hother => hle _ (List.mem_map_of_mem hother)
    rw [List.max?_eq_some_iff]
    constructor
    · rcases h.missing newest hnewest with ⟨row, hrow, hsame⟩ | ⟨-, hgone⟩
      · exact List.mem_map.mpr ⟨row, hrow, hsame.height⟩
      · rw [hgone] at hcurrent
        cases hcurrent
    · intro other hother
      obtain ⟨row, hrow, rfl⟩ := List.mem_map.mp hother
      obtain ⟨old, hold, hsame⟩ := h.sound row hrow
      rw [hsame.height]
      exact hle _ (List.mem_map_of_mem hold)

/-- **The verdict does not change.** -/
theorem isKnownRootLive_eq (h : PrunedFrom cutoffMs full part) (hcutoff : cutoffMs ≤ cutoff')
    (root : String) : part.isKnownRootLive root cutoff' = full.isKnownRootLive root cutoff' := by
  rw [Bool.eq_iff_iff, isKnownRootLive_iff, isKnownRootLive_iff]
  constructor
  · rintro ⟨row, hrow, hroot, hlive⟩
    obtain ⟨old, hold, hsame⟩ := h.sound row hrow
    refine ⟨old, hold, hsame.root.symm.trans hroot, ?_⟩
    rwa [hsame.lastSeen, isCurrent_congr h.maxHeight_eq hsame] at hlive
  · rintro ⟨old, hold, hroot, hlive⟩
    rcases h.missing old hold with ⟨row, hrow, hsame⟩ | ⟨hlast, hcurrent⟩
    · refine ⟨row, hrow, hsame.root.trans hroot, ?_⟩
      rwa [hsame.lastSeen, isCurrent_congr h.maxHeight_eq hsame]
    · rw [hcurrent] at hlive
      rcases hlive with hrecent | hlive
      · omega
      · cases hlive

/-- More pruning of one side. -/
theorem prune_right (h : PrunedFrom cutoffMs full part) (hcutoff : cutoff' ≤ cutoffMs) :
    PrunedFrom cutoffMs full (part.prune cutoff') where
  sound row hrow := h.sound row (mem_prune.mp hrow).1
  missing old hold := by
    rcases h.missing old hold with ⟨row, hrow, hsame⟩ | hgone
    · by_cases hkept : cutoff' ≤ row.lastSeenMs ∨ part.isCurrent row = true
      · exact .inl ⟨row, mem_prune.mpr ⟨hrow, hkept⟩, hsame⟩
      · rw [not_or, not_le, Bool.not_eq_true, hsame.lastSeen,
          isCurrent_congr h.maxHeight_eq hsame] at hkept
        exact .inr ⟨hkept.1.trans_le hcutoff, hkept.2⟩
    · exact .inr hgone

theorem maxHeight_prune (roots : KnownRoots) (cutoffMs : Int) :
    (roots.prune cutoffMs).maxHeight = roots.maxHeight :=
  ((refl cutoffMs roots).prune_right le_rfl).maxHeight_eq

/-- The same pruning of both. -/
theorem prune (h : PrunedFrom cutoffMs full part) (cutoff' : Int) :
    PrunedFrom cutoffMs (full.prune cutoff') (part.prune cutoff') where
  sound row hrow := by
    obtain ⟨hrow, hkept⟩ := mem_prune.mp hrow
    obtain ⟨old, hold, hsame⟩ := h.sound row hrow
    refine ⟨old, mem_prune.mpr ⟨hold, ?_⟩, hsame⟩
    rwa [hsame.lastSeen, isCurrent_congr h.maxHeight_eq hsame] at hkept
  missing old hold := by
    obtain ⟨hold, hkept⟩ := mem_prune.mp hold
    rcases h.missing old hold with ⟨row, hrow, hsame⟩ | ⟨hlast, hcurrent⟩
    · refine .inl ⟨row, mem_prune.mpr ⟨hrow, ?_⟩, hsame⟩
      rwa [hsame.lastSeen, isCurrent_congr h.maxHeight_eq hsame]
    · refine .inr ⟨hlast, ?_⟩
      rw [isCurrent_congr (maxHeight_prune full cutoff') ⟨rfl, rfl, rfl⟩]
      exact hcurrent

/-- The same delivery to both. -/
theorem upsert (h : PrunedFrom cutoffMs full part)
    (hheights : ∀ old ∈ full.rows, old.height ≤ height) (root : String) (now : Int) :
    PrunedFrom cutoffMs (full.upsert root height now) (part.upsert root height now) where
  sound row hrow := by
    rcases mem_upsert.mp hrow with ⟨hroot, hheight, hlast, -⟩ | ⟨hrow, hne⟩
    · refine ⟨⟨root, height, now, _⟩, mem_upsert.mpr (.inl ⟨rfl, rfl, rfl, rfl⟩), ?_⟩
      exact ⟨hroot, hheight, hlast⟩
    · obtain ⟨old, hold, hsame⟩ := h.sound row hrow
      exact ⟨old, mem_upsert.mpr (.inr ⟨hold, hsame.root ▸ hne⟩), hsame⟩
  missing old hold := by
    rcases mem_upsert.mp hold with ⟨hroot, hheight, hlast, -⟩ | ⟨hold, hne⟩
    · refine .inl ⟨⟨root, height, now, _⟩, mem_upsert.mpr (.inl ⟨rfl, rfl, rfl, rfl⟩), ?_⟩
      exact ⟨hroot.symm, hheight.symm, hlast.symm⟩
    · rcases h.missing old hold with ⟨row, hrow, hsame⟩ | ⟨hlast, hcurrent⟩
      · exact .inl ⟨row, mem_upsert.mpr (.inr ⟨hrow, hsame.root.symm ▸ hne⟩), hsame⟩
      · -- the new row is at least as high as what was higher
        refine .inr ⟨hlast, ?_⟩
        rw [Bool.eq_false_iff] at hcurrent ⊢
        refine fun hstill => hcurrent ((isCurrent_iff hold).mpr fun other hother => ?_)
        obtain ⟨newest, hnewest, -, hheight, -⟩ := upsert_current root now hheights
        have hstill := (isCurrent_iff (mem_upsert.mpr (.inr ⟨hold, hne⟩))).mp hstill
        exact (hheights other hother).trans (hheight ▸ hstill newest hnewest)

end PrunedFrom

/-! ## Timing -/

theorem min?_congr {l l' : List Int} (h : ∀ x, x ∈ l ↔ x ∈ l') : l.min? = l'.min? := by
  cases hmin : l.min? with
  | none =>
    rw [List.min?_eq_none_iff] at hmin
    rw [eq_comm, List.min?_eq_none_iff, List.eq_nil_iff_forall_not_mem]
    intro x hx
    have hmem := (h x).mpr hx
    rw [hmin] at hmem
    cases hmem
  | some least =>
    obtain ⟨hmem, hle⟩ := List.min?_eq_some_iff.mp hmin
    exact (List.min?_eq_some_iff.mpr ⟨(h least).mp hmem, fun x hx => hle x ((h x).mpr hx)⟩).symm

/-- The rows of accepted roots are in both tables. -/
theorem PrunedFrom.kept (h : PrunedFrom cutoffMs full part) {inputRoots : List String}
    (hlive : ∀ root ∈ inputRoots, full.isKnownRootLive root cutoffMs = true) {old : KnownRoot}
    (hold : old ∈ full.rows) (hroot : old.root ∈ inputRoots) :
    ∃ row ∈ part.rows, old.SameDelivery row := by
  rcases h.missing old hold with hkept | ⟨hlast, hcurrent⟩
  · exact hkept
  · obtain ⟨found, hfound, hsame, haccepted⟩ := isKnownRootLive_iff.mp (hlive _ hroot)
    obtain rfl := eq_of_root hold hfound hsame
    rw [hcurrent] at haccepted
    rcases haccepted with hrecent | haccepted
    · omega
    · cases haccepted

/-- **The window anchor of accepted roots does not change.** -/
theorem PrunedFrom.windowAnchor_eq (h : PrunedFrom cutoffMs full part) {inputRoots : List String}
    (hlive : ∀ root ∈ inputRoots, full.isKnownRootLive root cutoffMs = true) (blockMs : Int) :
    (part.getOfferRootTiming inputRoots blockMs).2 =
      (full.getOfferRootTiming inputRoots blockMs).2 := by
  have hanchor : ∀ {row old : KnownRoot}, old.SameDelivery row →
      part.windowAnchor blockMs row = full.windowAnchor blockMs old := by
    intro row old hsame
    unfold windowAnchor
    rw [isCurrent_congr h.maxHeight_eq hsame, hsame.lastSeen]
  refine min?_congr fun anchor => ?_
  rw [List.mem_map, List.mem_map]
  constructor
  · rintro ⟨row, hrow, rfl⟩
    obtain ⟨hrow, hin⟩ := List.mem_filter.mp hrow
    obtain ⟨old, hold, hsame⟩ := h.sound row hrow
    exact ⟨old, List.mem_filter.mpr ⟨hold, hsame.root ▸ hin⟩, (hanchor hsame).symm⟩
  · rintro ⟨old, hold, rfl⟩
    obtain ⟨hold, hin⟩ := List.mem_filter.mp hold
    obtain ⟨row, hrow, hsame⟩ := h.kept hlive hold (of_decide_eq_true hin)
    exact ⟨row, List.mem_filter.mpr ⟨hrow, hsame.root ▸ hin⟩, hanchor hsame⟩

/-- The first sighting does not change either, where the rows are the same. -/
theorem PrunedFrom.getOfferRootTiming_eq (h : PrunedFrom cutoffMs full part)
    (hsubset : part.rows ⊆ full.rows) {inputRoots : List String}
    (hlive : ∀ root ∈ inputRoots, full.isKnownRootLive root cutoffMs = true) (blockMs : Int) :
    part.getOfferRootTiming inputRoots blockMs = full.getOfferRootTiming inputRoots blockMs := by
  refine Prod.ext (min?_congr fun firstSeen => ?_) (h.windowAnchor_eq hlive blockMs)
  rw [List.mem_map, List.mem_map]
  constructor
  · rintro ⟨row, hrow, rfl⟩
    obtain ⟨hrow, hin⟩ := List.mem_filter.mp hrow
    exact ⟨row, List.mem_filter.mpr ⟨hsubset hrow, hin⟩, rfl⟩
  · rintro ⟨old, hold, rfl⟩
    obtain ⟨hold, hin⟩ := List.mem_filter.mp hold
    obtain ⟨row, hrow, hsame⟩ := h.kept hlive hold (of_decide_eq_true hin)
    obtain rfl := eq_of_root hold (hsubset hrow) hsame.root
    exact ⟨row, List.mem_filter.mpr ⟨hrow, hin⟩, rfl⟩

/-- A root that is delivered again while it is live keeps its first sighting in both tables. -/
theorem PrunedFrom.upsert_subset (h : PrunedFrom cutoffMs full part)
    (hsubset : part.rows ⊆ full.rows)
    (hlive : (∃ old ∈ full.rows, old.root = root) → full.isKnownRootLive root cutoffMs = true) :
    (part.upsert root height now).rows ⊆ (full.upsert root height now).rows := by
  have hfirst : ((part.rows.find? (·.root = root)).map (·.firstSeenMs)) =
      (full.rows.find? (·.root = root)).map (·.firstSeenMs) := by
    cases hfull : full.rows.find? (·.root = root) with
    | none =>
      have hnone : part.rows.find? (·.root = root) = none :=
        List.find?_eq_none.mpr fun row hrow => List.find?_eq_none.mp hfull row (hsubset hrow)
      rw [hnone]
    | some old =>
      have hold := List.mem_of_find?_eq_some hfull
      have hroot : old.root = root := by simpa using List.find?_some hfull
      obtain ⟨row, hrow, hsame⟩ := h.kept (List.forall_mem_singleton.mpr
        (hroot ▸ hlive ⟨old, hold, hroot⟩)) hold (List.mem_singleton.mpr rfl)
      obtain rfl := eq_of_root hold (hsubset hrow) hsame.root
      cases hpart : part.rows.find? (·.root = root) with
      | none => exact absurd (decide_eq_true hroot) (List.find?_eq_none.mp hpart row hrow)
      | some found =>
        have hfound : found.root = root := by simpa using List.find?_some hpart
        rw [eq_of_root hrow (List.mem_of_find?_eq_some hpart) (hfound.trans hroot.symm)]
  intro row hrow
  rcases mem_upsert.mp hrow with hnew | ⟨hrow, hne⟩
  · rw [hfirst] at hnew
    exact mem_upsert.mpr (.inl hnew)
  · exact mem_upsert.mpr (.inr ⟨hsubset hrow, hne⟩)

theorem PrunedFrom.prune_subset (h : PrunedFrom cutoffMs full part)
    (hsubset : part.rows ⊆ full.rows) (cutoff' : Int) :
    (part.prune cutoff').rows ⊆ (full.prune cutoff').rows := by
  intro row hrow
  obtain ⟨hrow, hkept⟩ := mem_prune.mp hrow
  refine mem_prune.mpr ⟨hsubset hrow, ?_⟩
  rwa [isCurrent_congr h.maxHeight_eq ⟨rfl, rfl, rfl⟩] at hkept

end KnownRoots

/-! ## Two runs -/

/-- `pruneKnownRoots`. -/
def Db.pruneKnownRoots (db : Db) (cutoffMs : Int) : Db :=
  { db with knownRoots := db.knownRoots.prune cutoffMs }

/-- The same state with other known roots. -/
def Db.withRoots (db : Db) (roots : KnownRoots) : Db := { db with knownRoots := roots }

/-- The root an input delivers. -/
def NodeInput.delivers : NodeInput → Option String
  | .zswapRoot payloadRoot =>
    let root := canonicalRootHex (payloadRoot.getD "")
    if root = "" then none else some root
  | _ => none

/-- What an input does to the known roots. -/
def NodeInput.rootsAfter (env : NodeEnv) (ctx : BlockContext) (input : NodeInput)
    (roots : KnownRoots) : KnownRoots :=
  match input.delivers with
  | none => roots
  | some root => (roots.upsert root ctx.blockHeight ctx.blockTimestamp).prune
      (ctx.blockTimestamp - env.rootWindowMs)

/-- Pairs of states that the same inputs lead to, every input meeting a condition: the second run
has more calls of `pruneKnownRoots`, at any points and with any cutoff up to the window. -/
inductive PruningRun (env : NodeEnv) (ledger : Ledger)
    (meets : BlockContext → Db → NodeInput → Prop) : BlockContext → Db → Db → Prop
  | start (ctx : BlockContext) : PruningRun env ledger meets ctx {} {}
  | block {ctx ctx' : BlockContext} {db pruned : Db} (h : PruningRun env ledger meets ctx db pruned)
    (hheight : ctx.blockHeight < ctx'.blockHeight)
    (htime : ctx.blockTimestamp ≤ ctx'.blockTimestamp) : PruningRun env ledger meets ctx' db pruned
  | input {ctx : BlockContext} {db pruned db' pruned' : Db}
    (h : PruningRun env ledger meets ctx db pruned) (input : NodeInput)
    (hmeets : meets ctx db input) (hstep : processInput env ledger ctx db input = .ok db')
    (hstep' : processInput env ledger ctx pruned input = .ok pruned') :
    PruningRun env ledger meets ctx db' pruned'
  | prune {ctx : BlockContext} {db pruned : Db} (h : PruningRun env ledger meets ctx db pruned)
    {cutoffMs : Int} (hcutoff : cutoffMs ≤ ctx.blockTimestamp - env.rootWindowMs) :
    PruningRun env ledger meets ctx db (pruned.pruneKnownRoots cutoffMs)

/-- A root that the table lists is delivered again only while it is live. -/
def RedeliversLive (env : NodeEnv) (ctx : BlockContext) (db : Db) (input : NodeInput) : Prop :=
  ∀ root ∈ input.delivers, (∃ old ∈ db.knownRoots.rows, old.root = root) →
    db.knownRoots.isKnownRootLive root (ctx.blockTimestamp - env.rootWindowMs) = true

section Runs

variable {env : NodeEnv} {ledger : Ledger} {ctx : BlockContext} {db db' pruned : Db}
  {meets : BlockContext → Db → NodeInput → Prop} {roots : KnownRoots}

theorem processInput_rootsAfter {input : NodeInput}
    (hstep : processInput env ledger ctx db input = .ok db') :
    db'.knownRoots = input.rootsAfter env ctx db.knownRoots := by
  cases input with
  | zswapRoot payloadRoot =>
    cases hstep
    unfold zswapRoot NodeInput.rootsAfter NodeInput.delivers
    dsimp only
    split <;> rfl
  | _ =>
    rcases knownRoots_processInput hstep with hsame | ⟨payloadRoot, heq, -⟩
    · exact hsame
    · cases heq

theorem PruningRun.nodeRun (h : PruningRun env ledger meets ctx db pruned) :
    NodeRun env ledger ctx db := by
  induction h with
  | start ctx => exact .start ctx
  | block _ hheight htime ih => exact ih.block hheight htime
  | input _ input _ hstep _ ih => exact ih.input input hstep
  | prune _ _ ih => exact ih

/-- One input keeps the two tables together. -/
theorem KnownRoots.PrunedFrom.rootsAfter {full part : KnownRoots} {cutoffMs : Int}
    (h : full.PrunedFrom cutoffMs part) (hheights : ∀ old ∈ full.rows, old.height ≤ ctx.blockHeight)
    (input : NodeInput) : (input.rootsAfter env ctx full).PrunedFrom cutoffMs
      (input.rootsAfter env ctx part) := by
  unfold NodeInput.rootsAfter
  split
  · exact h
  · exact (h.upsert hheights _ _).prune _

/-- **The two tables, along any two runs.** -/
theorem PruningRun.prunedFrom (h : PruningRun env ledger meets ctx db pruned) :
    db.knownRoots.PrunedFrom (ctx.blockTimestamp - env.rootWindowMs) pruned.knownRoots := by
  induction h with
  | start ctx => exact .refl _ _
  | block _ _ htime ih => exact ih.mono (by omega)
  | input hrun input _ hstep hstep' ih =>
    rw [processInput_rootsAfter hstep, processInput_rootsAfter hstep']
    exact ih.rootsAfter hrun.nodeRun.heights input
  | prune _ hcutoff ih => exact ih.prune_right hcutoff

/-! ## The tables beside the roots -/

theorem probeLiveness_withRoots {cutoffMs : Int}
    (hverdict : ∀ root, roots.isKnownRootLive root cutoffMs =
      db.knownRoots.isKnownRootLive root cutoffMs) (result : OfferValidation) :
    (db.withRoots roots).probeLiveness result cutoffMs = db.probeLiveness result cutoffMs := by
  have hlive : (db.withRoots roots).isLive cutoffMs = db.isLive cutoffMs := by
    funext descriptor
    cases descriptor with
    | root root => exact hverdict root
    | _ => rfl
  unfold Db.probeLiveness
  rw [hlive]

theorem insertOfferFileToken_withRoots (offerFileId : Nat) (leg : TokenLeg) (db : Db)
    (roots : KnownRoots) : Db.insertOfferFileToken offerFileId (db.withRoots roots) leg =
      (Db.insertOfferFileToken offerFileId db leg).map (·.withRoots roots) := by
  unfold Db.insertOfferFileToken Db.withRoots
  dsimp only
  split <;> rfl

theorem foldlM_insertOfferFileToken_withRoots (offerFileId : Nat) (legs : List TokenLeg) (db : Db)
    (roots : KnownRoots) : legs.foldlM (Db.insertOfferFileToken offerFileId) (db.withRoots roots) =
      (legs.foldlM (Db.insertOfferFileToken offerFileId) db).map (·.withRoots roots) := by
  induction legs generalizing db with
  | nil => rfl
  | cons leg legs ih =>
    rw [List.foldlM_cons, List.foldlM_cons, insertOfferFileToken_withRoots]
    cases Db.insertOfferFileToken offerFileId db leg with
    | error message => rfl
    | ok inserted => exact ih inserted

theorem saveOfferFile_withRoots (rawBytes : List UInt8) (result : OfferValidation)
    (expiresAt firstSeenAt : Int) (db : Db) (roots : KnownRoots) :
    saveOfferFile ledger ctx rawBytes result expiresAt firstSeenAt (db.withRoots roots) =
      (saveOfferFile ledger ctx rawBytes result expiresAt firstSeenAt db).map
        (·.withRoots roots) := by
  let declared := fun db : Db =>
    (collectUnshieldedOutputs result.tx).foldl (Db.insertOfferFileUnshieldedOutput db.nextId)
      ((collectOutputCommitments result.tx).foldl (Db.insertOfferFileCommitment db.nextId)
        (result.unshieldedSpends.foldl (Db.insertOfferFileUnshieldedSpend db.nextId)
          (result.nullifiers.foldl (Db.insertOfferFileNullifier db.nextId) (db.insertOfferFile
            (offerFileRow ledger ctx rawBytes expiresAt firstSeenAt db.nextId)))))
  have hdeclared : declared (db.withRoots roots) = (declared db).withRoots roots := by
    simp only [declared, foldl_insertOfferFileNullifier, foldl_insertOfferFileUnshieldedSpend,
      foldl_insertOfferFileCommitment, foldl_insertOfferFileUnshieldedOutput]
    rfl
  show ((result.gives.map (TokenLeg.mk · .giving)).foldlM (Db.insertOfferFileToken db.nextId)
      (declared (db.withRoots roots)) >>= fun given =>
        (result.wants.map (TokenLeg.mk · .wanting)).foldlM
          (Db.insertOfferFileToken db.nextId) given) =
    ((result.gives.map (TokenLeg.mk · .giving)).foldlM (Db.insertOfferFileToken db.nextId)
      (declared db) >>= fun given => (result.wants.map (TokenLeg.mk · .wanting)).foldlM
        (Db.insertOfferFileToken db.nextId) given).map (·.withRoots roots)
  rw [hdeclared, foldlM_insertOfferFileToken_withRoots]
  cases (result.gives.map (TokenLeg.mk · .giving)).foldlM (Db.insertOfferFileToken db.nextId)
      (declared db) with
  | error message => rfl
  | ok given => exact foldlM_insertOfferFileToken_withRoots _ _ given roots

theorem foldl_reconcileNullifier_withRoots (nullifiers : List String) (state : Db × Bool)
    (roots : KnownRoots) :
    nullifiers.foldl (reconcileNullifier ctx) (state.1.withRoots roots, state.2) =
      ((nullifiers.foldl (reconcileNullifier ctx) state).1.withRoots roots,
        (nullifiers.foldl (reconcileNullifier ctx) state).2) := by
  induction nullifiers generalizing state with
  | nil => rfl
  | cons nullifier nullifiers ih =>
    rw [List.foldl_cons, List.foldl_cons, ← ih]
    congr 1
    unfold reconcileNullifier
    dsimp only
    by_cases hunmatched : state.1.findUnmatchedNullifier nullifier = true
    · rw [if_pos hunmatched]
      exact if_pos hunmatched
    · rw [if_neg hunmatched]
      exact if_neg hunmatched

/-- **Intake answers the same over a pruned table.** -/
theorem celestiaZswap_withRoots
    (h : db.knownRoots.PrunedFrom (ctx.blockTimestamp - env.rootWindowMs) roots)
    (hsubset : roots.rows ⊆ db.knownRoots.rows) (rawBytes : List UInt8) :
    celestiaZswap env ledger ctx rawBytes (db.withRoots roots) =
      (celestiaZswap env ledger ctx rawBytes db).map (·.withRoots roots) := by
  have hhash : (db.withRoots roots).hasOfferHash (ledger.sha256 rawBytes) =
      db.hasOfferHash (ledger.sha256 rawBytes) := rfl
  have hprobe := @probeLiveness_withRoots db roots _ (h.isKnownRootLive_eq le_rfl)
  have hmarkers : ∀ markers, (db.withRoots roots).probeMarkers markers = db.probeMarkers markers :=
    fun _ => rfl
  unfold celestiaZswap
  cases validateZswapOfferBytes ledger env.offerMaxBytes rawBytes with
  | error rejection => rfl
  | ok result =>
    dsimp only
    rw [hhash, hprobe, hmarkers]
    by_cases hduplicate : db.hasOfferHash (ledger.sha256 rawBytes) = true
    · rw [if_pos hduplicate, if_pos hduplicate]
      rfl
    rw [if_neg hduplicate, if_neg hduplicate]
    cases hlive : db.probeLiveness result (ctx.blockTimestamp - env.rootWindowMs) with
    | error message => rfl
    | ok verdict =>
    cases verdict with
    | error rejection => rfl
    | ok =>
    -- every root is live, so the timing is the same
    have htimes : offerTimes env ledger ctx (db.withRoots roots).knownRoots result =
        offerTimes env ledger ctx db.knownRoots result := by
      have hroots := (evaluateOfferLiveness_ok (probeLiveness_ok hlive)).2.2
      unfold offerTimes
      rw [show (db.withRoots roots).knownRoots = roots from rfl,
        h.getOfferRootTiming_eq hsubset hroots]
    cases verifyOfferCrypto ledger result.tx ctx.blockTimestamp with
    | error rejection => rfl
    | ok =>
    cases db.probeMarkers (declaredMarkers result.tx) with
    | error message => rfl
    | ok claimed =>
    cases claimed with
    | some marker => rfl
    | none =>
    simp only [bind, Except.bind]
    rw [htimes]
    cases offerTimes env ledger ctx db.knownRoots result with
    | error message => rfl
    | ok times =>
    simp only [Option.isSome_none, Bool.false_eq_true, if_false]
    rw [saveOfferFile_withRoots]
    cases saveOfferFile ledger ctx rawBytes result times.1 times.2 db with
    | error message => rfl
    | ok indexed =>
    simp only [Except.map]
    have hfold := @foldl_reconcileNullifier_withRoots ctx result.nullifiers (indexed, false) roots
    rw [hfold]
    split <;> rfl

/-- One input keeps the runs together. -/
theorem processInput_withRoots
    (h : db.knownRoots.PrunedFrom (ctx.blockTimestamp - env.rootWindowMs) roots)
    (hsubset : roots.rows ⊆ db.knownRoots.rows) (input : NodeInput) :
    processInput env ledger ctx (db.withRoots roots) input =
      (processInput env ledger ctx db input).map
        (·.withRoots (input.rootsAfter env ctx roots)) := by
  cases input with
  | celestiaZswap suppliedValue => exact celestiaZswap_withRoots h hsubset suppliedValue
  | zswapEvent event =>
    cases event with
    | commitment commitment txHash mtIndex => rfl
    | nullifier nullifier txHash =>
      refine congrArg Except.ok ?_
      unfold zswapEvent
      dsimp only
      by_cases hmatched : ((db.insertNullifier nullifier ctx.blockHeight
          (optionalHex txHash)).offerFile.any ((db.insertNullifier nullifier ctx.blockHeight
            (optionalHex txHash)).competesForNullifier nullifier)) = true
      · rw [if_pos hmatched]
        exact if_pos hmatched
      · rw [if_neg hmatched]
        exact if_neg hmatched
  | unshieldedSpend payload =>
    refine congrArg Except.ok ?_
    unfold unshieldedSpend
    split <;> rfl
  | unshieldedCreate payload =>
    refine congrArg Except.ok ?_
    unfold unshieldedCreate
    split <;> rfl
  | zswapRoot payloadRoot =>
    refine congrArg Except.ok ?_
    unfold zswapRoot NodeInput.rootsAfter NodeInput.delivers
    dsimp only
    split <;> rfl
  | ttlCleanup offerId =>
    show archiveOfferAtExpiry ctx offerId _ = (archiveOfferAtExpiry ctx offerId _).map _
    unfold archiveOfferAtExpiry
    cases expiryTimestamp "cleanup block" ctx.blockTimestamp <;> rfl

theorem RedeliversLive.rootsAfter_subset {input : NodeInput}
    (hmeets : RedeliversLive env ctx db input)
    (h : db.knownRoots.PrunedFrom (ctx.blockTimestamp - env.rootWindowMs) roots)
    (hsubset : roots.rows ⊆ db.knownRoots.rows)
    (hheights : ∀ old ∈ db.knownRoots.rows, old.height ≤ ctx.blockHeight) :
    (input.rootsAfter env ctx roots).rows ⊆ (input.rootsAfter env ctx db.knownRoots).rows := by
  unfold NodeInput.rootsAfter
  split
  · exact hsubset
  · rename_i root hdelivers
    exact (h.upsert hheights root ctx.blockTimestamp).prune_subset
      (h.upsert_subset hsubset (hmeets root hdelivers)) _

/-- **The two runs**, while every root that is delivered again is still live: they differ in pruned
roots only. -/
theorem PruningRun.same (h : PruningRun env ledger (RedeliversLive env) ctx db pruned) :
    pruned = db.withRoots pruned.knownRoots ∧ pruned.knownRoots.rows ⊆ db.knownRoots.rows := by
  induction h with
  | start ctx => exact ⟨rfl, List.Subset.refl _⟩
  | block _ _ _ ih => exact ih
  | input hrun input hmeets hstep hstep' ih =>
    obtain ⟨hsame, hsubset⟩ := ih
    have htwo := @processInput_withRoots env ledger _ _ _ hrun.prunedFrom hsubset input
    rw [← hsame, hstep, hstep'] at htwo
    have hroots := processInput_rootsAfter hstep'
    refine ⟨?_, ?_⟩
    · rw [hroots]
      exact Except.ok.inj htwo
    · rw [hroots, processInput_rootsAfter hstep]
      exact hmeets.rootsAfter_subset hrun.prunedFrom hsubset hrun.nodeRun.heights
  | prune _ hcutoff ih =>
    obtain ⟨hsame, hsubset⟩ := ih
    refine ⟨?_, fun row hrow => hsubset (KnownRoots.mem_prune.mp hrow).1⟩
    rw [hsame]
    rfl

/-! ## A root that is delivered again -/

/-- Sightings do not run ahead of the block. -/
theorem NodeRun.firstSeen_le (h : NodeRun env ledger ctx db) : ∀ row ∈ db.knownRoots.rows,
    row.firstSeenMs ≤ row.lastSeenMs ∧ row.lastSeenMs ≤ ctx.blockTimestamp := by
  induction h with
  | start ctx => exact fun row hrow => absurd hrow List.not_mem_nil
  | block _ _ htime ih => exact fun row hrow => ⟨(ih row hrow).1, (ih row hrow).2.trans htime⟩
  | @input ctx db db' hrun input hstep ih =>
    rcases knownRoots_processInput hstep with hsame | ⟨payloadRoot, -, -, hroots⟩
    · rwa [hsame]
    · rw [hroots]
      intro row hrow
      rcases KnownRoots.mem_upsert.mp (KnownRoots.mem_prune.mp hrow).1 with
        ⟨-, -, hlast, hfirst⟩ | ⟨hrow, -⟩
      · rw [hlast, hfirst]
        refine ⟨?_, le_rfl⟩
        cases hfind : db.knownRoots.rows.find?
            (·.root = canonicalRootHex (payloadRoot.getD "")) with
        | none => exact le_rfl
        | some old =>
          obtain ⟨hle, hlast⟩ := ih old (List.mem_of_find?_eq_some hfind)
          exact hle.trans hlast
      · exact ih row hrow

/-- The first sighting of a root that was just delivered. -/
theorem firstSeen_rootsAfter {input : NodeInput} {root : String}
    (hdelivers : input.delivers = some root)
    (hheights : ∀ old ∈ roots.rows, old.height ≤ ctx.blockHeight) (blockMs : Int) :
    ((input.rootsAfter env ctx roots).getOfferRootTiming [root] blockMs).1 =
      some (((roots.rows.find? (·.root = root)).map (·.firstSeenMs)).getD ctx.blockTimestamp) := by
  unfold NodeInput.rootsAfter
  rw [hdelivers]
  dsimp only
  obtain ⟨row, hrow, hroot, -, hcurrent⟩ :=
    KnownRoots.upsert_current root ctx.blockTimestamp hheights
  have hkept : row ∈ ((roots.upsert root ctx.blockHeight ctx.blockTimestamp).prune
      (ctx.blockTimestamp - env.rootWindowMs)).rows :=
    KnownRoots.mem_prune.mpr ⟨hrow, .inr hcurrent⟩
  have hfirst : row.firstSeenMs =
      ((roots.rows.find? (·.root = root)).map (·.firstSeenMs)).getD ctx.blockTimestamp := by
    rcases KnownRoots.mem_upsert.mp hrow with ⟨-, -, -, hfirst⟩ | ⟨-, hne⟩
    · exact hfirst
    · exact absurd hroot hne
  refine List.min?_eq_some_iff.mpr ⟨?_, fun firstSeen hmem => ?_⟩
  · rw [← hfirst]
    exact List.mem_map_of_mem (List.mem_filter.mpr
      ⟨hkept, decide_eq_true (List.mem_singleton.mpr hroot)⟩)
  · obtain ⟨other, hother, rfl⟩ := List.mem_map.mp hmem
    obtain ⟨hother, hin⟩ := List.mem_filter.mp hother
    have hsame := List.mem_singleton.mp (of_decide_eq_true hin)
    rw [KnownRoots.eq_of_root hkept hother (hsame.trans hroot.symm), hfirst]

/-- **A root that is delivered again after it left the window** has the first sighting of its new
row if a call of `pruneKnownRoots` comes first, and of its old row otherwise. -/
theorem redelivered_firstSeen (henv : env.Resolved) (h : NodeRun env ledger ctx db)
    {input : NodeInput} (hredelivers : ¬ RedeliversLive env ctx db input) :
    ∃ root ∈ input.delivers, ∀ blockMs,
      ((input.rootsAfter env ctx (db.pruneKnownRoots (ctx.blockTimestamp -
        env.rootWindowMs)).knownRoots).getOfferRootTiming [root] blockMs).1 ≠
      ((input.rootsAfter env ctx db.knownRoots).getOfferRootTiming [root] blockMs).1 := by
  have hwindow := henv.rootWindow_pos
  unfold RedeliversLive at hredelivers
  push Not at hredelivers
  obtain ⟨root, hdelivers, ⟨old, hold, hroot⟩, hdead⟩ := hredelivers
  have hgone : ¬ (ctx.blockTimestamp - env.rootWindowMs ≤ old.lastSeenMs ∨
      db.knownRoots.isCurrent old = true) :=
    fun hlive => hdead (KnownRoots.isKnownRootLive_iff.mpr ⟨old, hold, hroot, hlive⟩)
  have hheights : ∀ row ∈ (db.pruneKnownRoots (ctx.blockTimestamp -
      env.rootWindowMs)).knownRoots.rows, row.height ≤ ctx.blockHeight :=
    fun row hrow => h.heights row (KnownRoots.mem_prune.mp hrow).1
  refine ⟨root, hdelivers, fun blockMs hsame => ?_⟩
  rw [firstSeen_rootsAfter hdelivers h.heights, firstSeen_rootsAfter hdelivers hheights] at hsame
  have hpruned : (db.pruneKnownRoots (ctx.blockTimestamp -
      env.rootWindowMs)).knownRoots.rows.find? (·.root = root) = none := by
    refine List.find?_eq_none.mpr fun row hrow hrowRoot => ?_
    obtain ⟨hrow, hkept⟩ := KnownRoots.mem_prune.mp hrow
    rw [KnownRoots.eq_of_root hold hrow ((of_decide_eq_true hrowRoot).trans hroot.symm)] at hkept
    exact hgone hkept
  rw [hpruned] at hsame
  cases hfind : db.knownRoots.rows.find? (·.root = root) with
  | none => exact List.find?_eq_none.mp hfind old hold (decide_eq_true hroot)
  | some found =>
    have hfound : found.root = root := by simpa using List.find?_some hfind
    obtain rfl := KnownRoots.eq_of_root hold (List.mem_of_find?_eq_some hfind)
      (hfound.trans hroot.symm)
    rw [hfind] at hsame
    have hnow : ctx.blockTimestamp = found.firstSeenMs := Option.some.inj hsame
    have hle := (h.firstSeen_le found hold).1
    rw [not_or, not_le] at hgone
    unfold NodeEnv.rootWindowMs at hgone
    omega

/-- **Expiry is bounded, and independent of pruning.** An accepted offer stores an expiry between
its block and every limit that applies to it. Along any two runs that differ in calls of
`pruneKnownRoots`, every verdict of the root-liveness query is the same, and so is the window anchor
of accepted roots. If every root that is delivered again is still live, the runs have the same
offers and answer every input alike, with the whole timing of accepted roots; a delivery that breaks
this makes the timing depend on the pruning. -/
theorem expiry_prune_independent (hrules : ExpiryRules env ledger) (henv : env.Resolved) :
    (∀ ctx db, NodeRun env ledger ctx db → ∀ rawBytes result db' offer,
      validateZswapOfferBytes ledger env.offerMaxBytes rawBytes = .ok result →
      celestiaZswap env ledger ctx rawBytes db = .ok db' →
      offer ∉ db.offerFile → offer ∈ db'.offerFile →
      offer.metadataCreatedAt = ctx.blockTimestamp ∧
      ExpiryBounds env ledger ctx db.knownRoots result offer.metadataExpiresAt) ∧
    (∀ ctx db pruned, PruningRun env ledger (fun _ _ _ => True) ctx db pruned →
      ∀ cutoffMs, ctx.blockTimestamp - env.rootWindowMs ≤ cutoffMs →
      (∀ root, pruned.knownRoots.isKnownRootLive root cutoffMs =
        db.knownRoots.isKnownRootLive root cutoffMs) ∧
      ∀ inputRoots, (∀ root ∈ inputRoots, db.knownRoots.isKnownRootLive root cutoffMs = true) →
        ∀ blockMs, (pruned.knownRoots.getOfferRootTiming inputRoots blockMs).2 =
          (db.knownRoots.getOfferRootTiming inputRoots blockMs).2) ∧
    (∀ ctx db pruned, PruningRun env ledger (RedeliversLive env) ctx db pruned →
      pruned = db.withRoots pruned.knownRoots ∧
      (∀ inputRoots, (∀ root ∈ inputRoots, db.knownRoots.isKnownRootLive root
        (ctx.blockTimestamp - env.rootWindowMs) = true) → ∀ blockMs,
        pruned.knownRoots.getOfferRootTiming inputRoots blockMs =
          db.knownRoots.getOfferRootTiming inputRoots blockMs) ∧
      ∀ input, processInput env ledger ctx pruned input =
        (processInput env ledger ctx db input).map
          (·.withRoots (input.rootsAfter env ctx pruned.knownRoots))) ∧
    ∀ ctx db, NodeRun env ledger ctx db → ∀ input, ¬ RedeliversLive env ctx db input →
      ∃ root ∈ input.delivers, ∀ blockMs,
        ((input.rootsAfter env ctx (db.pruneKnownRoots (ctx.blockTimestamp -
          env.rootWindowMs)).knownRoots).getOfferRootTiming [root] blockMs).1 ≠
        ((input.rootsAfter env ctx db.knownRoots).getOfferRootTiming [root] blockMs).1 := by
  refine ⟨fun ctx db hrun rawBytes result db' offer hvalid hstep hnew hoffer => ?_,
    fun ctx db pruned hrun cutoffMs hcutoff => ?_, fun ctx db pruned hrun => ?_,
    fun ctx db hrun input => redelivered_firstSeen henv hrun⟩
  · obtain ⟨expiresAt, firstSeenAt, saved, haccepts, rfl, -⟩ :=
      celestiaZswap_new hvalid hstep hnew hoffer
    refine ⟨rfl, haccepts.expiryBounds hrules henv ?_⟩
    rcases celestiaZswap_cases hstep with ⟨code, rfl⟩ | ⟨other, _, _, _, hother, hcrypto, -, -⟩
    · exact absurd hoffer hnew
    · have hsame : other = result := Except.ok.inj (hother.validated.symm.trans hvalid)
      rwa [hsame] at hcrypto
  · have hpruned := hrun.prunedFrom.mono hcutoff
    exact ⟨hpruned.isKnownRootLive_eq le_rfl, fun inputRoots hlive => hpruned.windowAnchor_eq hlive⟩
  · obtain ⟨hsame, hsubset⟩ := hrun.same
    refine ⟨hsame, fun inputRoots hlive => hrun.prunedFrom.getOfferRootTiming_eq hsubset hlive,
      fun input => ?_⟩
    have htwo := @processInput_withRoots env ledger _ _ _ hrun.prunedFrom hsubset input
    rwa [← hsame] at htwo

end Runs

namespace RedeliveredRoot

open SupersededAfterIntake (env)

/-- Intents that have not expired, with DUST spends in their grace period. -/
def wellFormed (tx : OfferTransaction) (tblock : Int) : Except String Unit :=
  if tx.intents.all fun entry => decide (tblock ≤ entry.2.ttl) &&
      entry.2.dustActions.all fun dust =>
        decide (0 < dust.spends → tblock ≤ dust.ctime + 10800 * 1000) then .ok ()
  else .error "Intent TTL has expired"

/-- An offer whose one input has the root `04`. -/
def ledger : Ledger := { SupersededAfterIntake.ledger with
  wellFormed := wellFormed
  earliestIntentTtl := fun tx => (tx.intents.map (·.2.ttl)).min? }

theorem rules : ExpiryRules env ledger where
  intent := by
    intro tx tblock ttl hwellFormed hmin
    obtain ⟨entry, hentry, rfl⟩ := List.mem_map.mp (List.min?_mem hmin)
    obtain ⟨hall, -⟩ := ite_eq_iff.mp hwellFormed |>.resolve_right (fun h => nomatch h.2)
    have hentry := List.all_eq_true.mp hall entry hentry
    rw [Bool.and_eq_true, decide_eq_true_eq] at hentry
    exact hentry.1
  dust := by
    intro tx tblock hwellFormed entry hentry dust hdust hspends
    obtain ⟨hall, -⟩ := ite_eq_iff.mp hwellFormed |>.resolve_right (fun h => nomatch h.2)
    have hentry := List.all_eq_true.mp hall entry hentry
    rw [Bool.and_eq_true] at hentry
    have hgrace := hentry.2
    rw [Option.mem_def.mp hdust] at hgrace
    exact of_decide_eq_true hgrace hspends

theorem resolved : env.Resolved := ⟨⟨"", some 3600, by decide⟩, ⟨some 3600, by decide⟩⟩

def first : BlockContext := ⟨1, 0⟩
def second : BlockContext := ⟨2, 6000⟩
def third : BlockContext := ⟨3, 7200000⟩

/-- Root `04`, then root `08`; two hours later root `04` leaves the window. -/
def superseded : Db := zswapRoot env second (some "08") (zswapRoot env first (some "04") {})

def pruned : Db := superseded.pruneKnownRoots 3600000

theorem superseded_runs (meets : BlockContext → Db → NodeInput → Prop)
    (hfirst : meets first {} (.zswapRoot (some "04")))
    (hsecond : meets second (zswapRoot env first (some "04") {}) (.zswapRoot (some "08"))) :
    PruningRun env ledger meets third superseded pruned := by
  have hdelivered := (PruningRun.start first).input (.zswapRoot (some "04")) hfirst
    (show processInput env ledger first {} _ = _ from rfl) rfl
  have hnext := (hdelivered.block (show first.blockHeight < second.blockHeight by decide)
    (by decide)).input (.zswapRoot (some "08")) hsecond
      (show processInput env ledger second _ _ = .ok superseded from rfl) rfl
  exact (hnext.block (show second.blockHeight < third.blockHeight by decide) (by decide)).prune
    (show (3600000 : Int) ≤ third.blockTimestamp - env.rootWindowMs by decide)

/-- Root `04` is delivered again. -/
def again (db : Db) : Db := zswapRoot env third (some "04") db

def offered (db : Db) : Db := (celestiaZswap env ledger third [1] (again db)).toOption.getD {}

theorem offered_step {db : Db}
    (h : (celestiaZswap env ledger third [1] (again db)).toOption.isSome) :
    celestiaZswap env ledger third [1] (again db) = .ok (offered db) := by
  obtain ⟨next, hnext⟩ := Option.isSome_iff_exists.mp h
  unfold offered
  rw [hnext]
  exact Except.eq_ok_of_toOption hnext

theorem offered_superseded :
    celestiaZswap env ledger third [1] (again superseded) = .ok (offered superseded) :=
  offered_step (by decide +kernel)

theorem offered_pruned :
    celestiaZswap env ledger third [1] (again pruned) = .ok (offered pruned) :=
  offered_step (by decide +kernel)

theorem offered_runs : PruningRun env ledger (fun _ _ _ => True) third (offered superseded)
    (offered pruned) :=
  ((superseded_runs (fun _ _ _ => True) trivial trivial).input (.zswapRoot (some "04")) trivial
    (show processInput env ledger third _ _ = .ok (again superseded) from rfl) rfl).input
      (.celestiaZswap [1]) trivial offered_superseded offered_pruned

end RedeliveredRoot

open RedeliveredRoot SupersededAfterIntake in
/-- Root `04` is seen at 0 s and, after root `08`, again at 7200 s. A call of `pruneKnownRoots` in
between moves the first sighting of an offer that proves against it by two hours. -/
theorem redelivered_root_forgotten : ∃ ctx db pruned,
    ExpiryRules env RedeliveredRoot.ledger ∧ env.Resolved ∧
    PruningRun env RedeliveredRoot.ledger (fun _ _ _ => True) ctx db pruned ∧
    db.knownRoots.isKnownRootLive "04" (ctx.blockTimestamp - env.rootWindowMs) = true ∧
    db.knownRoots.getOfferRootTiming ["04"] ctx.blockTimestamp = (some 0, some 7200000) ∧
    pruned.knownRoots.getOfferRootTiming ["04"] ctx.blockTimestamp =
      (some 7200000, some 7200000) ∧
    db.offerFile.map (·.firstSeenAt) = [0] ∧ pruned.offerFile.map (·.firstSeenAt) = [7200000] :=
  ⟨RedeliveredRoot.third, offered superseded, offered RedeliveredRoot.pruned, rules, resolved,
    offered_runs, by decide +kernel, by decide +kernel, by decide +kernel, by decide +kernel,
    by decide +kernel⟩

open RedeliveredRoot SupersededAfterIntake in
/-- The offer expires an hour after its block. A call that drops root `04` changes nothing else. -/
theorem expiry_prune_independent_superseded :
    (∃ offer ∈ (offered superseded).offerFile, offer.metadataCreatedAt = 7200000 ∧
      7200000 ≤ offer.metadataExpiresAt) ∧
    RedeliveredRoot.pruned = superseded.withRoots RedeliveredRoot.pruned.knownRoots ∧
    (superseded.knownRoots.rows.map (·.root) = ["04", "08"] ∧
      RedeliveredRoot.pruned.knownRoots.rows.map (·.root) = ["08"]) := by
  obtain ⟨hbounds, -, hruns, -⟩ := expiry_prune_independent rules resolved
  refine ⟨?_, ?_, by decide +kernel⟩
  · have hcount : (offered superseded).offerFile.map (·.firstSeenAt) = [0] := by decide +kernel
    obtain ⟨offer, hoffers, -⟩ := List.map_eq_singleton_iff.mp hcount
    have hoffer : offer ∈ (offered superseded).offerFile := hoffers ▸ List.mem_singleton.mpr rfl
    obtain ⟨result, hresult⟩ := Option.isSome_iff_exists.mp (show (validateZswapOfferBytes
      RedeliveredRoot.ledger env.offerMaxBytes [1]).toOption.isSome = true by decide +kernel)
    have hrun : NodeRun env RedeliveredRoot.ledger RedeliveredRoot.third (again superseded) :=
      ((superseded_runs (fun _ _ _ => True) trivial trivial).input (.zswapRoot (some "04")) trivial
        (show processInput env RedeliveredRoot.ledger RedeliveredRoot.third _ _ =
          .ok (again superseded) from rfl) rfl).nodeRun
    obtain ⟨hcreated, hexpiry⟩ := hbounds _ _ hrun [1] result _ offer
      (Except.eq_ok_of_toOption hresult) offered_superseded List.not_mem_nil hoffer
    exact ⟨offer, hoffer, hcreated, hexpiry.notPast⟩
  · have hnone : ∀ {ctx : BlockContext} {db : Db} {root : String},
        (db.knownRoots.rows.all (·.root ≠ canonicalRootHex root)) = true →
        RedeliversLive env ctx db (.zswapRoot (some root)) := by
      rintro ctx db root hfresh delivered hdelivers ⟨old, hold, hroot⟩
      have hne := of_decide_eq_true (List.all_eq_true.mp hfresh old hold)
      unfold NodeInput.delivers at hdelivers
      dsimp only at hdelivers
      split at hdelivers
      · cases hdelivers
      · cases hdelivers
        exact absurd hroot hne
    exact (hruns _ _ _ (superseded_runs (RedeliversLive env) (hnone rfl)
      (hnone (by decide +kernel)))).1

end ZswapKernel
