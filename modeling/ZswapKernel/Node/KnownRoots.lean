import Mathlib.Data.List.MinMax
import ZswapKernel.Lib.BestByKey
import ZswapKernel.Lib.Timeline

/-!
# The known roots of the node

`known_roots` of `packages/database`: the coin-commitment tree roots the node has seen, with the L2
block that delivered each last. `isKnownRootLive`, `pruneKnownRoots` and `getOfferRootTiming` stand in
for the ledger's rule on past roots, which holds the current root and every root that was current in
the window (`Timeline.Held`).

* `Tracks.live_iff` — what the table accepts, in terms of the deliveries.
* `RootRun.tracks` — the table along a run of blocks.
* `KnownRoots.rootDeadline_le` — the expiry limit of some roots.
-/

namespace ZswapKernel

/-- A row of `known_roots`. -/
structure KnownRoot where
  root : String
  height : Nat
  lastSeenMs : Int
  firstSeenMs : Int
  deriving DecidableEq, Repr

/-- `known_roots`, whose primary key is the root. -/
structure KnownRoots where
  rows : List KnownRoot
  distinct : rows.Pairwise (·.root ≠ ·.root)

namespace KnownRoots

def empty : KnownRoots := ⟨[], .nil⟩

/-- `SELECT MAX(height)`: null when there is no row. -/
def maxHeight (roots : KnownRoots) : Option Nat := (roots.rows.map (·.height)).max?

/-- `upsertKnownRootWithFirstSeen`. -/
def upsert (roots : KnownRoots) (root : String) (height : Nat) (seenMs : Int) : KnownRoots where
  rows := BestByKey.replace (·.root) ⟨root, height, seenMs,
    ((roots.rows.find? (·.root = root)).map (·.firstSeenMs)).getD seenMs⟩ roots.rows
  distinct := BestByKey.pairwise_replace roots.distinct _

/-- `height >= (SELECT MAX(height) …)`: not true of a null. -/
def isCurrent (roots : KnownRoots) (row : KnownRoot) : Bool := roots.maxHeight.any (· ≤ row.height)

/-- `isKnownRootLive`. -/
def isKnownRootLive (roots : KnownRoots) (root : String) (cutoffMs : Int) : Bool :=
  roots.rows.any fun row =>
    row.root = root && (decide (cutoffMs ≤ row.lastSeenMs) || roots.isCurrent row)

/-- `pruneKnownRoots`. -/
def prune (roots : KnownRoots) (cutoffMs : Int) : KnownRoots where
  rows := roots.rows.filter fun row =>
    !(decide (row.lastSeenMs < cutoffMs) && roots.maxHeight.any (row.height < ·))
  distinct := roots.distinct.filter _

/-- The window anchor of one row. -/
def windowAnchor (roots : KnownRoots) (blockMs : Int) (row : KnownRoot) : Int :=
  if roots.isCurrent row then max row.lastSeenMs blockMs else row.lastSeenMs

/-- `getOfferRootTiming`: the earliest first sighting and the earliest window anchor of the roots. -/
def getOfferRootTiming (roots : KnownRoots) (inputRoots : List String) (blockMs : Int) :
    Option Int × Option Int :=
  let rows := roots.rows.filter (·.root ∈ inputRoots)
  ((rows.map (·.firstSeenMs)).min?, (rows.map (roots.windowAnchor blockMs)).min?)

/-- The expiry limit of an offer's roots: the anchor and the window. -/
def rootDeadline (roots : KnownRoots) (inputRoots : List String) (blockMs window : Int) :
    Option Int :=
  (roots.getOfferRootTiming inputRoots blockMs).2.map (· + window)

end KnownRoots

/-! ## Deliveries -/

/-- A root, as the block that delivers it. -/
structure RootDelivery where
  root : String
  height : Nat
  time : Int
  deriving DecidableEq, Repr

/-- Deliveries so far, the latest first. -/
abbrev RootDeliveries := List RootDelivery

/-- The ledger holds the root at `now`. -/
def HeldRoot (window : Int) (past : RootDeliveries) (now : Int) (root : String) : Prop :=
  Timeline.Held RootDelivery.root RootDelivery.time window past now root

/-- `d` is the last delivery of `root`. -/
abbrev LastDelivery (past : RootDeliveries) (root : String) (later : RootDeliveries)
    (d : RootDelivery) (earlier : RootDeliveries) : Prop :=
  Timeline.LastOf RootDelivery.root past root later d earlier

theorem exists_lastDelivery {past : RootDeliveries} {root : String}
    (h : ∃ d ∈ past, d.root = root) : ∃ later d earlier, LastDelivery past root later d earlier :=
  Timeline.exists_lastOf h

/-- Blocks have nondecreasing times, and deliveries of one block share its time. -/
structure InBlocks (past : RootDeliveries) (height : Nat) (now : Int) : Prop extends
    Timeline.Ordered RootDelivery.time past now where
  heights : past.Pairwise (·.height ≥ ·.height)
  upToHeight : ∀ d ∈ past, d.height ≤ height
  sameBlock : ∀ d ∈ past, ∀ x ∈ past, d.height = x.height → d.time = x.time
  thisBlock : ∀ d ∈ past, d.height = height → d.time = now

/-- The row of a delivery. -/
structure KnownRoot.Of (row : KnownRoot) (d : RootDelivery) : Prop where
  root : row.root = d.root
  height : row.height = d.height
  lastSeen : row.lastSeenMs = d.time

/-- The table against the deliveries: each row is the last delivery of its root, and a root without a
row was pruned. -/
structure Tracks (window : Int) (past : RootDeliveries) (now : Int) (roots : KnownRoots) : Prop where
  sound : ∀ row ∈ roots.rows, ∃ later d earlier,
    LastDelivery past row.root later d earlier ∧ row.Of d
  complete : ∀ root later d earlier, LastDelivery past root later d earlier →
    (∃ row ∈ roots.rows, row.Of d) ∨
      (d.time < now - window ∧ ∃ newest ∈ past.head?, d.height < newest.height)

/-- Runs of the table: blocks, deliveries and prunings. -/
inductive RootRun (window : Int) : RootDeliveries → Nat → Int → KnownRoots → Prop
  | start (height : Nat) (now : Int) : RootRun window [] height now KnownRoots.empty
  | block {past : RootDeliveries} {height height' : Nat} {now now' : Int} {roots : KnownRoots}
    (h : RootRun window past height now roots) (hheight : height < height') (hnow : now ≤ now') :
    RootRun window past height' now' roots
  | deliver {past : RootDeliveries} {height : Nat} {now : Int} {roots : KnownRoots}
    (h : RootRun window past height now roots) (root : String) :
    RootRun window (⟨root, height, now⟩ :: past) height now (roots.upsert root height now)
  | prune {past : RootDeliveries} {height : Nat} {now : Int} {roots : KnownRoots}
    (h : RootRun window past height now roots) :
    RootRun window past height now (roots.prune (now - window))

/-! ## The table along a run -/

section Run

variable {window now : Int} {past : RootDeliveries} {height : Nat} {roots : KnownRoots}

theorem InBlocks.deliver (h : InBlocks past height now) (root : String) :
    InBlocks (⟨root, height, now⟩ :: past) height now where
  sorted := List.pairwise_cons.mpr ⟨h.upTo, h.sorted⟩
  upTo := List.forall_mem_cons.mpr ⟨le_rfl, h.upTo⟩
  heights := List.pairwise_cons.mpr ⟨h.upToHeight, h.heights⟩
  upToHeight := List.forall_mem_cons.mpr ⟨le_rfl, h.upToHeight⟩
  sameBlock := by
    intro d hd x hx heq
    rcases List.mem_cons.mp hd with rfl | hd <;> rcases List.mem_cons.mp hx with rfl | hx
    · rfl
    · exact (h.thisBlock x hx heq.symm).symm
    · exact h.thisBlock d hd heq
    · exact h.sameBlock d hd x hx heq
  thisBlock := List.forall_mem_cons.mpr ⟨fun _ => rfl, h.thisBlock⟩

theorem InBlocks.block (h : InBlocks past height now) {height' : Nat} {now' : Int}
    (hheight : height < height') (hnow : now ≤ now') : InBlocks past height' now' where
  sorted := h.sorted
  upTo := fun d hd => (h.upTo d hd).trans hnow
  heights := h.heights
  upToHeight := fun d hd => (h.upToHeight d hd).trans hheight.le
  sameBlock := h.sameBlock
  thisBlock := fun d hd heq => absurd (h.upToHeight d hd) (by omega)

/-- No delivery is higher than the latest. -/
theorem InBlocks.height_le (h : InBlocks past height now) {newest d : RootDelivery}
    (hnewest : newest ∈ past.head?) (hd : d ∈ past) : d.height ≤ newest.height := by
  obtain ⟨rest, rfl⟩ : ∃ rest, past = newest :: rest := List.head?_eq_some_iff.mp hnewest
  rcases List.mem_cons.mp hd with rfl | hd
  · exact le_rfl
  · exact List.rel_of_pairwise_cons h.heights hd

/-- The greatest height of the table is that of the latest delivery. -/
theorem Tracks.maxHeight_eq (h : Tracks window past now roots) (hblocks : InBlocks past height now) :
    roots.maxHeight = past.head?.map (·.height) := by
  unfold KnownRoots.maxHeight
  cases past with
  | nil =>
    have hnil : roots.rows = [] := by
      rw [List.eq_nil_iff_forall_not_mem]
      intro row hrow
      obtain ⟨later, d, earlier, hlast, -⟩ := h.sound row hrow
      exact absurd hlast.mem List.not_mem_nil
    rw [hnil]
    rfl
  | cons newest past =>
    have hnewest : LastDelivery (newest :: past) newest.root [] newest past :=
      ⟨rfl, rfl, fun x hx => absurd hx List.not_mem_nil⟩
    have hrow : ∃ row ∈ roots.rows, row.Of newest := by
      rcases h.complete _ _ _ _ hnewest with hrow | ⟨-, x, hx, hlt⟩
      · exact hrow
      · cases hx
        exact absurd hlt (lt_irrefl _)
    obtain ⟨row, hmem, hof⟩ := hrow
    rw [List.head?_cons, Option.map_some, List.max?_eq_some_iff]
    refine ⟨List.mem_map.mpr ⟨row, hmem, hof.height⟩, fun other hother => ?_⟩
    obtain ⟨row, hrow, rfl⟩ := List.mem_map.mp hother
    obtain ⟨later, d, earlier, hlast, hof⟩ := h.sound row hrow
    rw [hof.height]
    exact hblocks.height_le rfl hlast.mem

theorem Tracks.deliver (h : Tracks window past now roots) (hblocks : InBlocks past height now)
    (root : String) :
    Tracks window (⟨root, height, now⟩ :: past) now (roots.upsert root height now) where
  sound := by
    intro row hrow
    rcases (BestByKey.mem_replace roots.distinct).mp hrow with rfl | ⟨hrow, hne⟩
    · exact ⟨[], _, past, ⟨rfl, rfl, fun x hx => absurd hx List.not_mem_nil⟩, rfl, rfl, rfl⟩
    · obtain ⟨later, d, earlier, hlast, hof⟩ := h.sound row hrow
      refine ⟨_ :: later, d, earlier, ⟨by rw [hlast.split, List.cons_append], hlast.value_eq,
        List.forall_mem_cons.mpr ⟨fun heq => hne heq.symm, hlast.last⟩⟩, hof⟩
  complete := by
    rintro other later d earlier ⟨hsplit, hroot, hnone⟩
    cases later with
    | nil =>
      obtain ⟨rfl, -⟩ := List.cons.inj hsplit
      exact .inl ⟨_, (BestByKey.mem_replace roots.distinct).mpr (.inl rfl), rfl, rfl, rfl⟩
    | cons x later =>
      obtain ⟨rfl, hpast⟩ := List.cons.inj hsplit
      have hne : root ≠ other := hnone _ List.mem_cons_self
      have hlast : LastDelivery past other later d earlier :=
        ⟨hpast, hroot, fun y hy => hnone y (List.mem_cons_of_mem _ hy)⟩
      rcases h.complete _ _ _ _ hlast with ⟨row, hrow, hof⟩ | ⟨hold, newest, hnewest, hlt⟩
      · refine .inl ⟨row, (BestByKey.mem_replace roots.distinct).mpr (.inr ⟨hrow, ?_⟩), hof⟩
        exact fun heq => hne (heq.symm.trans (hof.root.trans hroot))
      · exact .inr ⟨hold, _, rfl,
          lt_of_lt_of_le hlt (hblocks.upToHeight _ (List.mem_of_mem_head? hnewest))⟩

theorem Tracks.prune (h : Tracks window past now roots) (hblocks : InBlocks past height now) :
    Tracks window past now (roots.prune (now - window)) where
  sound := fun row hrow => h.sound row (List.mem_filter.mp hrow).1
  complete := by
    intro root later d earlier hlast
    rcases h.complete _ _ _ _ hlast with ⟨row, hrow, hof⟩ | hpruned
    · by_cases hkept : row ∈ (roots.prune (now - window)).rows
      · exact .inl ⟨row, hkept, hof⟩
      · have hdropped : row.lastSeenMs < now - window ∧
            ∃ newest ∈ past.head?, row.height < newest.height := by
          unfold KnownRoots.prune at hkept
          rw [List.mem_filter, not_and] at hkept
          have := hkept hrow
          rw [h.maxHeight_eq hblocks] at this
          cases past with
          | nil => simp at this
          | cons newest past =>
            simp only [Bool.not_eq_true, Bool.not_eq_false', Bool.and_eq_true, decide_eq_true_eq,
              List.head?_cons, Option.map_some, Option.any_some] at this
            exact ⟨this.1, newest, rfl, this.2⟩
        rw [hof.lastSeen, hof.height] at hdropped
        exact .inr hdropped
    · exact .inr hpruned

theorem Tracks.block (h : Tracks window past now roots) {now' : Int} (hnow : now ≤ now') :
    Tracks window past now' roots where
  sound := h.sound
  complete := fun root later d earlier hlast => (h.complete root later d earlier hlast).imp id
    fun ⟨hold, hnewest⟩ => ⟨by omega, hnewest⟩

/-- The table has the row of a last delivery, or no row of its root. -/
theorem Tracks.row_of (h : Tracks window past now roots) {root : String}
    {later earlier : RootDeliveries} {d : RootDelivery}
    (hlast : LastDelivery past root later d earlier) {row : KnownRoot} (hrow : row ∈ roots.rows)
    (hroot : row.root = root) : row.Of d := by
  obtain ⟨later', d', earlier', hlast', hof⟩ := h.sound row hrow
  rw [hroot] at hlast'
  obtain ⟨-, rfl, -⟩ := hlast.unique hlast'
  exact hof

theorem Tracks.isCurrent_iff (h : Tracks window past now roots) (hblocks : InBlocks past height now)
    {row : KnownRoot} {d : RootDelivery} (hof : row.Of d) :
    roots.isCurrent row = true ↔ ∃ newest ∈ past.head?, newest.height ≤ d.height := by
  unfold KnownRoots.isCurrent
  rw [h.maxHeight_eq hblocks, hof.height]
  cases past <;> simp

/-- A root delivered in the window, or by the block that delivered last, was not pruned. -/
theorem Tracks.exists_row (h : Tracks window past now roots) {root : String}
    {later earlier : RootDeliveries} {d : RootDelivery}
    (hlast : LastDelivery past root later d earlier)
    (hlive : now - window ≤ d.time ∨ ∃ newest ∈ past.head?, newest.height ≤ d.height) :
    ∃ row ∈ roots.rows, row.Of d := by
  rcases h.complete _ _ _ _ hlast with hrow | ⟨hold, newest, hnewest, hlt⟩
  · exact hrow
  · rcases hlive with hrecent | ⟨other, hother, hge⟩
    · exact absurd hold (not_lt.mpr hrecent)
    · cases hnewest.symm.trans hother
      exact absurd hge (not_le.mpr hlt)

/-- **What the table accepts**: a root delivered in the window, or by the block that delivered
last. -/
theorem Tracks.live_iff (h : Tracks window past now roots) (hblocks : InBlocks past height now)
    {root : String} {later earlier : RootDeliveries} {d : RootDelivery}
    (hlast : LastDelivery past root later d earlier) :
    roots.isKnownRootLive root (now - window) = true ↔
      now - window ≤ d.time ∨ ∃ newest ∈ past.head?, newest.height ≤ d.height := by
  unfold KnownRoots.isKnownRootLive
  rw [List.any_eq_true]
  simp only [Bool.and_eq_true, Bool.or_eq_true, decide_eq_true_eq]
  constructor
  · rintro ⟨row, hrow, hroot, hlive⟩
    have hof := h.row_of hlast hrow hroot
    rwa [hof.lastSeen, h.isCurrent_iff hblocks hof] at hlive
  · intro hlive
    obtain ⟨row, hrow, hof⟩ := h.exists_row hlast hlive
    refine ⟨row, hrow, hof.root.trans hlast.value_eq, ?_⟩
    rwa [hof.lastSeen, h.isCurrent_iff hblocks hof]

/-- A root the table accepts was delivered. -/
theorem Tracks.delivered (h : Tracks window past now roots) {root : String} {cutoffMs : Int}
    (hlive : roots.isKnownRootLive root cutoffMs = true) : ∃ d ∈ past, d.root = root := by
  unfold KnownRoots.isKnownRootLive at hlive
  obtain ⟨row, hrow, hlive⟩ := List.any_eq_true.mp hlive
  rw [Bool.and_eq_true, decide_eq_true_eq] at hlive
  obtain ⟨later, d, earlier, hlast, -⟩ := h.sound row hrow
  exact ⟨d, hlast.mem, hlast.value_eq.trans hlive.1⟩

/-- The deadline of some roots is at most that of each. -/
theorem KnownRoots.rootDeadline_le {inputRoots : List String} {blockMs limit : Int}
    (h : roots.rootDeadline inputRoots blockMs window = some limit) {row : KnownRoot}
    (hrow : row ∈ roots.rows) (hroot : row.root ∈ inputRoots) :
    limit ≤ roots.windowAnchor blockMs row + window := by
  obtain ⟨anchor, hanchor, rfl⟩ := Option.map_eq_some_iff.mp h
  have hmin := (List.min?_eq_some_iff.mp hanchor).2 (roots.windowAnchor blockMs row)
    (List.mem_map_of_mem (List.mem_filter.mpr ⟨hrow, by simpa using hroot⟩))
  omega

/-- It is the deadline of one of them. -/
theorem KnownRoots.rootDeadline_eq {inputRoots : List String} (blockMs window : Int)
    {row : KnownRoot} (hrow : row ∈ roots.rows) (hroot : row.root ∈ inputRoots) :
    ∃ row ∈ roots.rows, row.root ∈ inputRoots ∧
      roots.rootDeadline inputRoots blockMs window =
        some (roots.windowAnchor blockMs row + window) := by
  cases hmin : (roots.getOfferRootTiming inputRoots blockMs).2 with
  | none =>
    have hnil := List.min?_eq_none_iff.mp hmin
    have hmem : row ∈ roots.rows.filter (·.root ∈ inputRoots) :=
      List.mem_filter.mpr ⟨hrow, by simpa using hroot⟩
    rw [List.map_eq_nil_iff.mp hnil] at hmem
    cases hmem
  | some anchor =>
    obtain ⟨found, hfound, rfl⟩ := List.mem_map.mp (List.min?_eq_some_iff.mp hmin).1
    obtain ⟨hfound, hin⟩ := List.mem_filter.mp hfound
    refine ⟨found, hfound, by simpa using hin, ?_⟩
    unfold KnownRoots.rootDeadline
    rw [hmin]
    rfl

end Run

end ZswapKernel
