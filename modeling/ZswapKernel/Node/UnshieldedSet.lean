import ZswapKernel.Node.OfferLiveness

/-!
# The created-unshielded set, block by block

One handler inserts created coins and another deletes spent ones. The configured primitives deliver
the spends of a block before its creates, so a coin created in the block that spends it stays.

* `isUnshieldedCreated_processBlock` — the set after one block.
* `exactUnshieldedSet_iff` — when it is what was created and not spent.
-/

namespace ZswapKernel

/-- The coins a block creates. -/
def NodeBlock.createdCoins (ledger : Ledger) (block : NodeBlock) : List UnshieldedSpendRef :=
  block.creates.filterMap (·.coin ledger)

/-- The coins a block spends. -/
def NodeBlock.spentCoins (ledger : Ledger) (block : NodeBlock) : List UnshieldedSpendRef :=
  block.spends.filterMap (·.coin ledger)

/-- `processBlock` for block after block. -/
def processBlocks (env : NodeEnv) (ledger : Ledger) (blocks : List NodeBlock) : Except String Db :=
  blocks.foldlM (processBlock env ledger) {}

/-- After every block the set holds what was created so far and not spent, and no live offer spends a
spent coin. -/
def ExactUnshieldedSet (env : NodeEnv) (ledger : Ledger) (blocks : List NodeBlock) : Prop :=
  ∀ earlier db, earlier <+: blocks → processBlocks env ledger earlier = .ok db →
    (∀ coin, db.isUnshieldedCreated coin = true ↔
      coin ∈ earlier.flatMap (·.createdCoins ledger) ∧
        coin ∉ earlier.flatMap (·.spentCoins ledger)) ∧
    ∀ offer ∈ db.offerFile, ∃ result, offer.Declares env ledger result ∧
      ∀ coin ∈ result.unshieldedSpends, coin ∉ earlier.flatMap (·.spentCoins ledger)

/-- No block creates a coin that it, or an earlier one, spends. -/
def CreatesBeforeSpends (ledger : Ledger) (blocks : List NodeBlock) : Prop :=
  ∀ earlier block, earlier ++ [block] <+: blocks → ∀ coin ∈ block.createdCoins ledger,
    coin ∉ (earlier ++ [block]).flatMap (·.spentCoins ledger)

section

variable {env : NodeEnv} {ledger : Ledger} {ctx : BlockContext} {db db' : Db}

/-- What an input does to the membership of one coin. -/
def NodeInput.coinAfter (ledger : Ledger) (coin : UnshieldedSpendRef) (present : Bool) :
    NodeInput → Bool
  | .unshieldedSpend payload => present && payload.coin ledger ≠ some coin
  | .unshieldedCreate payload => present || payload.coin ledger = some coin
  | _ => present

theorem isUnshieldedCreated_processInput {input : NodeInput}
    (h : processInput env ledger ctx db input = .ok db') (coin : UnshieldedSpendRef) :
    db'.isUnshieldedCreated coin =
      input.coinAfter ledger coin (db.isUnshieldedCreated coin) := by
  cases input with
  | celestiaZswap suppliedValue =>
    rcases celestiaZswap_ok h with ⟨code, rfl⟩ | ⟨_, _, _, saved, haccepts, rfl⟩
    · rfl
    · obtain ⟨tokens, rfl⟩ := saveOfferFile_ok haccepts.saved
      rfl
  | zswapEvent event =>
    cases h
    cases event with
    | commitment commitment txHash mtIndex => rfl
    | nullifier nullifier txHash =>
      obtain ⟨marked, hevent⟩ := zswapEvent_nullifier ctx nullifier txHash db
      rw [hevent]
      cases marked <;> rfl
  | unshieldedSpend payload =>
    cases h
    cases hcoin : payload.coin ledger with
    | none =>
      unfold NodeInput.coinAfter unshieldedSpend
      simp [hcoin]
    | some spent =>
      have hdelete := isUnshieldedCreated_delete ((db.archiveOfferByUnshieldedSpend spent
        ctx.blockTimestamp).insertUnshieldedSpend
          ⟨spent, optionalHex payload.txHash, ctx.blockHeight⟩) spent coin
      unfold NodeInput.coinAfter
      simp only [hcoin, ne_eq, Option.some.injEq]
      rw [unshieldedSpend_coin hcoin, hdelete, Bool.and_comm]
      simp only [ne_eq, eq_comm (a := coin)]
      rfl
  | unshieldedCreate payload =>
    cases h
    cases hcoin : payload.coin ledger with
    | none =>
      unfold NodeInput.coinAfter unshieldedCreate
      simp [hcoin]
    | some created =>
      have hinsert := isUnshieldedCreated_insert db created coin ctx.blockHeight
      rw [Bool.or_comm] at hinsert
      unfold NodeInput.coinAfter unshieldedCreate
      simp only [hcoin, Option.some.injEq, eq_comm (a := created)]
      exact hinsert
  | zswapRoot root =>
    cases h
    unfold zswapRoot
    simp only
    split <;> rfl
  | ttlCleanup offerId =>
    obtain ⟨cutoff, -, h⟩ := Except.bind_eq_ok.mp h
    cases h
    rfl

theorem isUnshieldedCreated_foldlM {inputs : List NodeInput}
    (h : inputs.foldlM (processInput env ledger ctx) db = .ok db') (coin : UnshieldedSpendRef) :
    db'.isUnshieldedCreated coin =
      inputs.foldl (NodeInput.coinAfter ledger coin) (db.isUnshieldedCreated coin) := by
  induction inputs generalizing db with
  | nil =>
    cases h
    rfl
  | cons input inputs ih =>
    rw [List.foldlM_cons, Except.bind_eq_ok] at h
    obtain ⟨middle, hstep, hrest⟩ := h
    rw [List.foldl_cons, ih hrest, isUnshieldedCreated_processInput hstep]

/-- Inputs of other kinds leave the set alone. -/
theorem foldl_coinAfter_other {α : Type} {kind : α → NodeInput} (coin : UnshieldedSpendRef)
    (hkind : ∀ a present, (kind a).coinAfter ledger coin present = present) (values : List α)
    (present : Bool) : (values.map kind).foldl (NodeInput.coinAfter ledger coin) present = present := by
  induction values with
  | nil => rfl
  | cons a values ih => rw [List.map_cons, List.foldl_cons, hkind, ih]

theorem foldl_coinAfter_spends (coin : UnshieldedSpendRef) (spends : List UnshieldedPayload)
    (present : Bool) :
    (spends.map NodeInput.unshieldedSpend).foldl (NodeInput.coinAfter ledger coin) present =
      (present && decide (coin ∉ spends.filterMap (·.coin ledger))) := by
  induction spends generalizing present with
  | nil => simp
  | cons payload spends ih =>
    rw [List.map_cons, List.foldl_cons, ih]
    unfold NodeInput.coinAfter
    cases hcoin : payload.coin ledger with
    | none => simp [hcoin]
    | some spent =>
      by_cases heq : coin = spent
      · simp [hcoin, heq]
      · simp [hcoin, heq, Ne.symm heq]

theorem foldl_coinAfter_creates (coin : UnshieldedSpendRef) (creates : List UnshieldedPayload)
    (present : Bool) :
    (creates.map NodeInput.unshieldedCreate).foldl (NodeInput.coinAfter ledger coin) present =
      (present || decide (coin ∈ creates.filterMap (·.coin ledger))) := by
  induction creates generalizing present with
  | nil => simp
  | cons payload creates ih =>
    rw [List.map_cons, List.foldl_cons, ih]
    unfold NodeInput.coinAfter
    cases hcoin : payload.coin ledger with
    | none => simp [hcoin]
    | some created =>
      by_cases heq : coin = created
      · simp [hcoin, heq]
      · simp [hcoin, heq, Ne.symm heq]

/-- **The set after a block**: what the block creates, and what it does not spend. -/
theorem isUnshieldedCreated_processBlock {block : NodeBlock}
    (h : processBlock env ledger db block = .ok db') (coin : UnshieldedSpendRef) :
    db'.isUnshieldedCreated coin = true ↔
      (db.isUnshieldedCreated coin = true ∧ coin ∉ block.spentCoins ledger) ∨
        coin ∈ block.createdCoins ledger := by
  rw [isUnshieldedCreated_foldlM h coin]
  unfold NodeBlock.inputs NodeBlock.spentCoins NodeBlock.createdCoins
  simp only [List.foldl_append]
  rw [foldl_coinAfter_other coin (fun _ _ => rfl) block.cleanups,
    foldl_coinAfter_other coin (fun _ _ => rfl) block.blobs,
    foldl_coinAfter_other coin (fun _ _ => rfl) block.zswapEvents, foldl_coinAfter_spends,
    foldl_coinAfter_creates, foldl_coinAfter_other coin (fun _ _ => rfl) block.roots]
  simp only [Bool.or_eq_true, Bool.and_eq_true, decide_eq_true_eq]

end

/-! ## Sequences of blocks -/

section

variable {env : NodeEnv} {ledger : Ledger} {blocks earlier : List NodeBlock} {block : NodeBlock}
  {db : Db}

theorem processBlocks_concat :
    processBlocks env ledger (earlier ++ [block]) = .ok db ↔
      ∃ middle, processBlocks env ledger earlier = .ok middle ∧
        processBlock env ledger middle block = .ok db := by
  unfold processBlocks
  rw [List.foldlM_append, Except.bind_eq_ok]
  simp only [List.foldlM_cons, List.foldlM_nil, bind_pure]

theorem processBlocks_of_prefix (h : processBlocks env ledger blocks = .ok db)
    (hearlier : earlier <+: blocks) : ∃ middle, processBlocks env ledger earlier = .ok middle := by
  obtain ⟨later, rfl⟩ := hearlier
  unfold processBlocks at h
  rw [List.foldlM_append, Except.bind_eq_ok] at h
  obtain ⟨middle, hmiddle, -⟩ := h
  exact ⟨middle, hmiddle⟩

theorem Db.Sound.foldlM_processInput {ctx : BlockContext} {inputs : List NodeInput} {db' : Db}
    (h : db.Sound env ledger)
    (hrun : inputs.foldlM (ZswapKernel.processInput env ledger ctx) db = .ok db') :
    db'.Sound env ledger := by
  induction inputs generalizing db with
  | nil =>
    cases hrun
    exact h
  | cons input inputs ih =>
    rw [List.foldlM_cons, Except.bind_eq_ok] at hrun
    obtain ⟨middle, hstep, hrest⟩ := hrun
    exact ih (h.processInput hstep) hrest

theorem processBlocks_sound (h : processBlocks env ledger blocks = .ok db) :
    db.Sound env ledger := by
  induction blocks using List.reverseRecOn generalizing db with
  | nil =>
    cases h
    exact ⟨by simp, .nil, by simp, by simp, by simp, by simp, by simp⟩
  | append_singleton blocks block ih =>
    obtain ⟨middle, hmiddle, hblock⟩ := processBlocks_concat.mp h
    exact (ih hmiddle).foldlM_processInput hblock

/-- Induction on the blocks: a coin that a block creates was not spent before the block ends. -/
theorem CreatesBeforeSpends.isUnshieldedCreated_iff (h : CreatesBeforeSpends ledger blocks)
    (hearlier : earlier <+: blocks) (hdb : processBlocks env ledger earlier = .ok db)
    (coin : UnshieldedSpendRef) : db.isUnshieldedCreated coin = true ↔
      coin ∈ earlier.flatMap (·.createdCoins ledger) ∧
        coin ∉ earlier.flatMap (·.spentCoins ledger) := by
  induction earlier using List.reverseRecOn generalizing db with
  | nil =>
    cases hdb
    simp [Db.isUnshieldedCreated]
  | append_singleton earlier block ih =>
    obtain ⟨middle, hmiddle, hblock⟩ := processBlocks_concat.mp hdb
    have hbefore := ih ((List.prefix_append earlier [block]).trans hearlier) hmiddle
    have hcreates := h earlier block hearlier coin
    rw [isUnshieldedCreated_processBlock hblock, hbefore]
    simp only [List.flatMap_append, List.flatMap_singleton, List.mem_append] at hcreates ⊢
    tauto

theorem ExactUnshieldedSet.createsBeforeSpends (h : ExactUnshieldedSet env ledger blocks)
    (hdb : processBlocks env ledger blocks = .ok db) : CreatesBeforeSpends ledger blocks := by
  intro earlier block hearlier coin hcreated
  obtain ⟨after, hafter⟩ := processBlocks_of_prefix hdb hearlier
  obtain ⟨middle, -, hblock⟩ := processBlocks_concat.mp hafter
  have hpresent := (isUnshieldedCreated_processBlock hblock coin).mpr (.inr hcreated)
  exact (((h _ after hearlier hafter).1 coin).mp hpresent).2

end

/-- **When the set is what was created and not spent**, over any blocks that the node processes. -/
theorem exactUnshieldedSet_iff {env : NodeEnv} {ledger : Ledger} {blocks : List NodeBlock} {db : Db}
    (h : processBlocks env ledger blocks = .ok db) :
    ExactUnshieldedSet env ledger blocks ↔ CreatesBeforeSpends ledger blocks := by
  constructor
  · exact fun hexact => hexact.createsBeforeSpends h
  · intro hcreates earlier middle hearlier hmiddle
    have hset := hcreates.isUnshieldedCreated_iff hearlier hmiddle
    refine ⟨hset, fun offer hoffer => ?_⟩
    have hsound := processBlocks_sound hmiddle
    obtain ⟨result, hlisted⟩ := hsound.listed offer hoffer
    refine ⟨result, hlisted.declares, fun coin hcoin => ?_⟩
    exact ((hset coin).mp (hsound.created offer hoffer _ (hlisted.spends coin hcoin) rfl)).2

/-! ## A coin spent in its own block -/

namespace SpentCoin

/-- The coin of `OneOffer` is created and spent in one block. -/
def first : NodeBlock where
  blockHeight := 1
  blockTimestamp := 1000
  spends := [OneOffer.coin]
  creates := [OneOffer.coin]

/-- Then an offer that spends it arrives. -/
def second : NodeBlock where
  blockHeight := 2
  blockTimestamp := 2000
  blobs := [[1]]

def blocks : List NodeBlock := [first, second]

def ref : UnshieldedSpendRef := ⟨"aa", "bb", 0⟩

theorem coin_spent : ref ∈ first.createdCoins OneOffer.ledger ∧
    ref ∈ first.spentCoins OneOffer.ledger := by
  decide +kernel

theorem offer_saved : (processBlocks OneOffer.env OneOffer.ledger blocks).toOption.map
    (·.offerFile.map fun offer => (offer.transactionHex, offer.offerHash)) =
      some [("01", "01")] := by
  decide +kernel

theorem offer_spends : (validateZswapOfferBytes OneOffer.ledger OneOffer.env.offerMaxBytes
    [1]).toOption.map (·.unshieldedSpends) = some [ref] := by
  decide +kernel

end SpentCoin

open SpentCoin in
/-- The coin stays in the set, and an offer that spends it is live. -/
theorem spent_coin_stays : ¬ ExactUnshieldedSet OneOffer.env OneOffer.ledger blocks ∧
    ∃ db, processBlocks OneOffer.env OneOffer.ledger blocks = .ok db ∧
      ∃ offer ∈ db.offerFile, ∃ result, offer.Declares OneOffer.env OneOffer.ledger result ∧
        ref ∈ result.unshieldedSpends ∧
        ref ∈ blocks.flatMap (·.spentCoins OneOffer.ledger) := by
  have hspent : ref ∈ blocks.flatMap (·.spentCoins OneOffer.ledger) :=
    List.mem_flatMap.mpr ⟨first, List.mem_cons_self, coin_spent.2⟩
  obtain ⟨db, hdb, hoffers⟩ := Option.map_eq_some_iff.mp offer_saved
  obtain ⟨result, hresult, hspends⟩ := Option.map_eq_some_iff.mp offer_spends
  have hdb := Except.eq_ok_of_toOption hdb
  obtain ⟨offer, hoffer, htext⟩ : ∃ offer ∈ db.offerFile,
      (offer.transactionHex, offer.offerHash) = ("01", "01") := by
    rw [← List.mem_map, hoffers]
    exact List.mem_singleton.mpr rfl
  obtain ⟨hhex, hhash⟩ := Prod.mk.inj htext
  refine ⟨fun hexact => ?_, db, hdb, offer, hoffer, result,
    ⟨[1], hhex, hhash, Except.eq_ok_of_toOption hresult⟩,
    hspends ▸ List.mem_singleton.mpr rfl, hspent⟩
  have hcreates := hexact.createsBeforeSpends hdb
  refine hcreates [] first (List.prefix_append [first] [second]) ref coin_spent.1 ?_
  exact List.mem_flatMap.mpr ⟨first, List.mem_cons_self, coin_spent.2⟩

open SpentCoin in
/-- The first of the two blocks already creates what it spends. -/
theorem exactUnshieldedSet_iff_spent_coin :
    ExactUnshieldedSet OneOffer.env OneOffer.ledger blocks ↔
      CreatesBeforeSpends OneOffer.ledger blocks := by
  obtain ⟨db, hdb, -⟩ := Option.map_eq_some_iff.mp offer_saved
  exact exactUnshieldedSet_iff (Except.eq_ok_of_toOption hdb)

end ZswapKernel
