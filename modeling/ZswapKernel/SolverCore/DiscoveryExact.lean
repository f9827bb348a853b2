import Mathlib.Algebra.Order.BigOperators.Group.Finset
import ZswapKernel.Lib.DirectedCycles
import ZswapKernel.SolverCore.LadderQuotes

/-!
# The discovery graph is exact

The components of the discovery graph are the weak components of the token graph of the book, and
the ones Kahn's removal marks are those that contain a directed cycle. So the universe of an input
token is its weak component together with every component with a cycle, and it contains every
feasible set.

* `union_within` — the disjoint sets put together only what the offers link.
* `drainQueue_complete` — the removal ends with every vertex of indegree zero removed.
* `GraphExact` — what `buildDiscoveryGraph` returns (`buildDiscoveryGraph_exact`).
* `universe_pruning_sound` — the universes of a derivation.
-/

namespace ZswapKernel

open ParentForest Program DirectedCycles

/-! ## The token graph -/

/-- An offer of the book takes `input` and pays `output`. -/
def Edge (offers : List Crossable) (input output : String) : Prop :=
  ∃ offer ∈ offers, offer.tokenIn = input ∧ offer.tokenOut = output

/-- Two tokens of one weak component. -/
abbrev Linked (offers : List Crossable) : String → String → Prop :=
  Relation.EqvGen (Edge offers)

/-- A directed cycle runs through the token. -/
def OnCycle (offers : List Crossable) (token : String) : Prop :=
  Relation.TransGen (Edge offers) token token

/-! ## Disjoint sets -/

namespace DisjointTokenSets

/-- Every vertex is related to its root. -/
def Within (R : Nat → Nat → Prop) (sets : DisjointTokenSets) : Prop :=
  ∀ v < sets.size, ∀ r, HasRoot sets.parent v r → R v r

theorem exists_root {sets : DisjointTokenSets} (h : sets.Sound) {v : Nat} (hv : v < sets.size) :
    ∃ r < sets.size, HasRoot sets.parent v r := by
  have hroot := (find_spec h hv).1
  exact ⟨_, (h.rank_le hv hroot).1, hroot⟩

theorem find_within {R : Nat → Nat → Prop} {sets : DisjointTokenSets} (h : sets.Sound)
    (hwithin : sets.Within R) {v : Nat} (hv : v < sets.size) : (sets.find v).2.Within R := by
  obtain ⟨-, -, hsize, hkeeps⟩ := find_spec h hv
  intro w hw r hr
  rw [hsize] at hw
  obtain ⟨r', -, hr'⟩ := exists_root h hw
  rw [hr.unique (hkeeps w r' hr')]
  exact hwithin w hw r' hr'

/-- Linking a root below a related one. -/
theorem link_within {R : Nat → Nat → Prop} (hR : Equivalence R) {sets : DisjointTokenSets}
    (h : sets.Sound) (hwithin : sets.Within R) {a b : Nat} (ha : sets.parent a = a)
    (hb : sets.parent b = b) (hne : a ≠ b) (hab : R a b) (rank : Nat → Nat) :
    Within R ⟨sets.size, Function.update sets.parent b a, rank⟩ := by
  intro v hv r hr
  obtain ⟨s, -, hs⟩ := exists_root h (v := v) hv
  have hvs := hwithin v hv s hs
  rw [hr.unique (hs.link ha hb hne)]
  split
  · rename_i heq
    rw [heq] at hvs
    exact hR.trans hvs (hR.symm hab)
  · exact hvs

/-- **`union`** puts together only what is related. -/
theorem union_within {R : Nat → Nat → Prop} (hR : Equivalence R) {sets : DisjointTokenSets}
    (h : sets.Sound) (hwithin : sets.Within R) {l r : Nat} (hl : l < sets.size)
    (hr : r < sets.size) (hlr : R l r) : (sets.union l r).Within R := by
  obtain ⟨hroot1, h1, hsize1, hkeeps1⟩ := find_spec h hl
  have hr1 : r < (sets.find l).2.size := hsize1 ▸ hr
  obtain ⟨hroot2, h2, hsize2, hkeeps2⟩ := find_spec h1 hr1
  have hwithin1 := find_within h hwithin hl
  have hwithin2 := find_within h1 hwithin1 hr1
  have hrootl := hkeeps2 _ _ (hkeeps1 _ _ hroot1)
  have hrootr := hkeeps2 _ _ hroot2
  have hla : R l (sets.find l).1 := hwithin l hl _ hroot1
  have hrb : R r ((sets.find l).2.find r).1 := hwithin1 r hr1 _ hroot2
  have hab : R (sets.find l).1 ((sets.find l).2.find r).1 :=
    hR.trans (hR.symm hla) (hR.trans hlr hrb)
  unfold union
  simp only
  by_cases heq : (sets.find l).1 = ((sets.find l).2.find r).1
  · rw [if_pos heq]
    exact hwithin2
  · rw [if_neg heq]
    by_cases hrank : ((sets.find l).2.find r).2.rank (sets.find l).1 <
        ((sets.find l).2.find r).2.rank ((sets.find l).2.find r).1
    · rw [if_pos hrank]
      exact link_within hR h2 hwithin2 hrootr.fixed hrootl.fixed (Ne.symm heq) (hR.symm hab) _
    · rw [if_neg hrank]
      exact link_within hR h2 hwithin2 hrootl.fixed hrootr.fixed heq hab _

/-- **`add`** relates the new vertex to itself. -/
theorem add_within {R : Nat → Nat → Prop} (hR : Equivalence R) {sets : DisjointTokenSets}
    (h : sets.Sound) (hwithin : sets.Within R) : sets.add.Within R := by
  obtain ⟨hsound, hkeeps⟩ := add_spec h
  intro v hv r hr
  rcases Nat.lt_succ_iff_lt_or_eq.mp hv with hlt | rfl
  · obtain ⟨s, hs, hroot⟩ := exists_root h hlt
    obtain ⟨t, hvt, hst⟩ := hkeeps v s hlt hs ⟨s, hroot, .root hroot.fixed⟩
    have hfixed : sets.add.parent s = s := by
      show Function.update sets.parent sets.size sets.size s = s
      rw [Function.update_of_ne hs.ne]
      exact hroot.fixed
    rw [hr.unique hvt, hst.eq_of_fixed hfixed]
    exact hwithin v hlt s hroot
  · have hfixed : sets.add.parent sets.size = sets.size := Function.update_self _ _ _
    rw [hr.eq_of_fixed hfixed]
    exact hR.refl _

end DisjointTokenSets

/-! ## Weak components -/

/-- The tokens of two vertices are linked. -/
def LinkedAt (offers : List Crossable) (tokenAt : List String) (v w : Nat) : Prop :=
  Linked offers (tokenAt.getD v "") (tokenAt.getD w "")

theorem linkedAt_equivalence (offers : List Crossable) (tokenAt : List String) :
    Equivalence (LinkedAt offers tokenAt) :=
  ⟨fun _ => .refl _, fun h => .symm _ _ h, fun h h' => .trans _ _ _ h h'⟩

/-- The sets of an index join linked tokens only. -/
def IndexLinked (offers : List Crossable) (index : TokenIndex) : Prop :=
  index.sets.Within (LinkedAt offers index.tokenAt)

theorem indexFor_linked (budget : Budget) {offers rest : List Crossable} {index : TokenIndex}
    (h : IndexHolds offers rest index) (hlinked : IndexLinked offers index) (token : String) :
    Returns (indexFor budget index token) (IndexLinked offers) := by
  unfold indexFor
  by_cases hmem : token ∈ index.tokenAt
  · rw [if_pos hmem]
    exact Returns.pure hlinked
  · rw [if_neg hmem]
    refine Returns.bind (Returns.trivial _) fun _ _ => Returns.pure ?_
    refine DisjointTokenSets.add_within (linkedAt_equivalence _ _) h.sound fun v hv r hr => ?_
    have hr' := (h.sound.rank_le hv hr).1
    have hvr := hlinked v hv r hr
    have hold : ∀ u < index.sets.size,
        (index.tokenAt ++ [token]).getD u "" = index.tokenAt.getD u "" := fun u hu => by
      rw [h.size] at hu
      simp [List.getElem?_append_left hu]
    unfold LinkedAt at hvr ⊢
    rwa [hold v hv, hold r hr']

theorem indexOffer_linked (budget : Budget) {offers rest : List Crossable} {index : TokenIndex}
    {offer : Crossable} (h : IndexHolds offers (offer :: rest) index)
    (hlinked : IndexLinked offers index) (hoffer : offer ∈ offers) :
    Returns (indexOffer budget index offer) (IndexLinked offers) := by
  unfold indexOffer
  refine Returns.bind ((indexFor_returns budget h offer.tokenIn).and
    (indexFor_linked budget h hlinked offer.tokenIn)) fun index1 h1 => ?_
  obtain ⟨⟨h1, hin1, -⟩, hlinked1⟩ := h1
  refine Returns.bind ((indexFor_returns budget h1 offer.tokenOut).and
    (indexFor_linked budget h1 hlinked1 offer.tokenOut)) fun index2 h2 => ?_
  obtain ⟨⟨h2, hout, hkeeps⟩, hlinked2⟩ := h2
  have hin := hkeeps _ hin1
  refine Returns.bind (Returns.trivial _) fun _ _ => Returns.pure ?_
  refine DisjointTokenSets.union_within (linkedAt_equivalence _ _) h2.sound hlinked2
    (h2.size ▸ indexIn_lt hin) (h2.size ▸ indexIn_lt hout) ?_
  unfold LinkedAt
  rw [getD_indexIn hin, getD_indexIn hout]
  exact .rel _ _ ⟨offer, hoffer, rfl, rfl⟩

/-- **The indexed sets** join linked tokens only. -/
theorem indexOffers_linked (budget : Budget) (offers : List Crossable) :
    Returns (offers.foldlM (indexOffer budget) ⟨.empty, []⟩) (IndexLinked offers) := by
  have hfold := Returns.foldlM (f := indexOffer budget) (l := offers) (a := ⟨.empty, []⟩)
    (I := fun index rest => (IndexHolds offers rest index ∧ IndexLinked offers index) ∧
      rest ⊆ offers) ?_ ?_
  · exact hfold.mono fun _ h => h.1.2
  · exact ⟨⟨⟨⟨fun v hv => absurd hv (Nat.not_lt_zero v), fun v hv => absurd hv (Nat.not_lt_zero v)⟩,
      rfl, List.nodup_nil, fun _ h => Or.inl h⟩, fun v hv => absurd hv (Nat.not_lt_zero v)⟩,
      List.Subset.refl _⟩
  · rintro index offer rest ⟨⟨h, hlinked⟩, hsub⟩
    refine ((indexOffer_returns budget h).and
      (indexOffer_linked budget h hlinked (hsub List.mem_cons_self))).mono fun _ h => ⟨h, ?_⟩
    exact fun o ho => hsub (List.mem_cons_of_mem _ ho)

/-! ## Kahn's removal -/

/-- Every vertex below `size` whose indegree ran out is removed or queued, and nothing else is. -/
structure KahnComplete (size : Nat) (state : KahnState) : Prop where
  inside : ∀ v ∈ state.removed ++ state.queue, v < size
  complete : ∀ v < size, state.indegree v = 0 → v ∈ state.removed ++ state.queue

theorem seedQueue_complete (budget : Budget) {indegree : Nat → Nat} (size : Nat) :
    Returns ((List.range size).foldlM (seedQueue budget) ⟨indegree, [], []⟩)
      fun state => KahnComplete size state ∧ state.removed = [] := by
  have hfold := Returns.foldlM (f := seedQueue budget) (l := List.range size)
    (a := ⟨indegree, [], []⟩)
    (I := fun state rest => (∀ v ∈ state.queue ++ rest, v < size) ∧ state.removed = [] ∧
      ∀ v < size, v ∈ rest ∨ (state.indegree v = 0 → v ∈ state.queue))
    ⟨fun v hv => List.mem_range.mp hv, rfl, fun v hv => Or.inl (List.mem_range.mpr hv)⟩ ?_
  · refine hfold.mono ?_
    rintro state ⟨hinside, hremoved, hcomplete⟩
    rw [List.append_nil] at hinside
    refine ⟨⟨?_, fun v hv hzero => ?_⟩, hremoved⟩
    · rw [hremoved, List.nil_append]
      exact hinside
    · rw [hremoved, List.nil_append]
      exact (hcomplete v hv).resolve_left List.not_mem_nil hzero
  · rintro state w rest ⟨hinside, hremoved, hcomplete⟩
    unfold seedQueue
    refine Returns.bind (Returns.trivial _) fun _ _ => Returns.pure ?_
    split
    · rename_i hw
      refine ⟨fun v hv => hinside v (by simpa using hv), hremoved, fun v hv => ?_⟩
      rcases hcomplete v hv with hmem | hqueued
      · rcases List.mem_cons.mp hmem with rfl | hmem
        · exact Or.inr fun _ => List.mem_append_right _ List.mem_cons_self
        · exact Or.inl hmem
      · exact Or.inr fun hzero => List.mem_append_left _ (hqueued hzero)
    · rename_i hw
      refine ⟨fun v hv => hinside v ?_, hremoved, fun v hv => ?_⟩
      · rcases List.mem_append.mp hv with hq | hr
        · exact List.mem_append_left _ hq
        · exact List.mem_append_right _ (List.mem_cons_of_mem _ hr)
      · rcases hcomplete v hv with hmem | hqueued
        · rcases List.mem_cons.mp hmem with rfl | hmem
          · exact Or.inr fun hzero => absurd hzero hw
          · exact Or.inl hmem
        · exact Or.inr hqueued

/-- Settling one out-edge queues its head when that was the last edge into it. -/
theorem removeEdge_complete (budget : Budget) {size : Nat} {state : KahnState} {output : Nat}
    (h : KahnComplete size state) (houtput : output < size) :
    Returns (removeEdge budget state output) fun state' =>
      KahnComplete size state' ∧ state'.removed = state.removed := by
  unfold removeEdge
  refine Returns.bind (Returns.trivial _) fun _ _ => Returns.pure ?_
  by_cases hlast : state.indegree output - 1 = 0
  · rw [if_pos hlast]
    refine ⟨⟨fun v hv => ?_, fun v hv hzero => ?_⟩, rfl⟩
    · simp only [← List.append_assoc] at hv
      rcases List.mem_append.mp hv with hold | hnew
      · exact h.inside v hold
      · rwa [List.mem_singleton.mp hnew]
    · simp only [← List.append_assoc]
      by_cases heq : v = output
      · exact List.mem_append_right _ (List.mem_singleton.mpr heq)
      · simp only [Function.update_of_ne heq] at hzero
        exact List.mem_append_left _ (h.complete v hv hzero)
  · rw [if_neg hlast]
    refine ⟨⟨h.inside, fun v hv hzero => ?_⟩, rfl⟩
    by_cases heq : v = output
    · subst heq
      simp only [Function.update_self] at hzero
      exact absurd hzero hlast
    · simp only [Function.update_of_ne heq] at hzero
      exact h.complete v hv hzero

/-- **The removal ends** with its queue empty: every vertex whose indegree ran out is removed. -/
theorem drainQueue_complete (budget : Budget) {edges : List (Nat × Nat)} {size : Nat}
    (hheads : ∀ edge ∈ edges, edge.2 < size) (fuel : Nat) {state : KahnState}
    (hstate : KahnHolds edges [] state) (h : KahnComplete size state)
    (hfuel : size ≤ fuel + state.removed.length) :
    Returns (drainQueue budget (headsFrom edges) fuel state) fun drained =>
      ∀ v < size, drained.indegree v = 0 → v ∈ drained.removed := by
  induction fuel generalizing state with
  | zero =>
    -- as many vertices are removed as there are
    have hcard : (state.removed ++ state.queue).length ≤ size := by
      have hsubset : state.removed ++ state.queue ⊆ List.range size := fun v hv =>
        List.mem_range.mpr (h.inside v hv)
      simpa using (List.subperm_of_subset hstate.nodup hsubset).length_le
    have hqueue : state.queue = [] := by
      rw [List.length_append] at hcard
      exact List.eq_nil_of_length_eq_zero (by omega)
    refine Returns.pure fun v hv hzero => ?_
    have hmem := h.complete v hv hzero
    rwa [hqueue, List.append_nil] at hmem
  | succ fuel ih =>
    unfold drainQueue
    cases hqueue : state.queue with
    | nil =>
      refine Returns.pure fun v hv hzero => ?_
      have hmem := h.complete v hv hzero
      rwa [hqueue, List.append_nil] at hmem
    | cons w queue =>
      refine Returns.bind (Returns.trivial _) fun _ _ => ?_
      have hsplit : state.removed ++ [w] ++ queue = state.removed ++ state.queue := by
        rw [hqueue, List.append_assoc, List.singleton_append]
      have hpopped : KahnComplete size { state with removed := state.removed ++ [w], queue } := by
        refine ⟨?_, ?_⟩
        · simp only [hsplit]
          exact h.inside
        · simp only [hsplit]
          exact h.complete
      have hfold := Returns.foldlM (f := removeEdge budget) (l := headsFrom edges w)
        (a := { state with removed := state.removed ++ [w], queue })
        (I := fun state' rest => (KahnHolds edges rest state' ∧ KahnComplete size state' ∧
          state'.removed = state.removed ++ [w]) ∧ ∀ v ∈ rest, v < size) ?_ ?_
      · refine Returns.bind hfold fun state' h' => ?_
        obtain ⟨⟨hholds, hcomplete, hremoved⟩, -⟩ := h'
        refine ih hholds hcomplete ?_
        rw [hremoved, List.length_append, List.length_singleton]
        omega
      · refine ⟨⟨hstate.pop hqueue, hpopped, rfl⟩, fun v hv => ?_⟩
        obtain ⟨edge, hedge, rfl⟩ := List.mem_map.mp hv
        exact hheads edge (List.mem_filter.mp hedge).1
      · rintro state' output rest ⟨⟨hholds, hcomplete, hremoved⟩, hrest⟩
        refine ((removeEdge_returns budget hholds).and
          (removeEdge_complete budget hcomplete (hrest output List.mem_cons_self))).mono
            fun _ h => ⟨⟨h.1, h.2.1, h.2.2.trans hremoved⟩, fun v hv =>
              hrest v (List.mem_cons_of_mem _ hv)⟩

/-! ## The marks -/

/-- A marked component has a vertex the removal left with a positive indegree. -/
def MarkedOnly (sets : DisjointTokenSets) (tokenAt : List String) (indegree : Nat → Nat)
    (components : List DiscoveryComponent) : Prop :=
  ∀ component ∈ components, component.cyclic = true → ∃ v < tokenAt.length,
    HasRoot sets.parent v component.root ∧ 0 < indegree v

theorem addToComponent_unmarked {root : Nat} {token : String}
    {components : List DiscoveryComponent} (h : ∀ component ∈ components, component.cyclic = false) :
    ∀ component ∈ addToComponent root token components, component.cyclic = false := by
  induction components with
  | nil =>
    intro component hmem
    rw [List.mem_singleton.mp hmem]
  | cons head components ih =>
    have hrest := ih fun c hc => h c (List.mem_cons_of_mem _ hc)
    intro component hmem
    unfold addToComponent at hmem
    split at hmem
    · rcases List.mem_cons.mp hmem with rfl | hmem
      · exact h head List.mem_cons_self
      · exact h component (List.mem_cons_of_mem _ hmem)
    · rcases List.mem_cons.mp hmem with rfl | hmem
      · exact h component List.mem_cons_self
      · exact hrest component hmem

/-- The scan marks nothing. -/
theorem scanTokens_unmarked (budget : Budget) (sets : DisjointTokenSets)
    (entries : List (String × Nat)) :
    Returns (entries.foldlM (scanToken budget) ⟨sets, []⟩) fun scan =>
      ∀ component ∈ scan.components, component.cyclic = false := by
  refine Returns.foldlM (I := fun (scan : ComponentScan) _ => ∀ component ∈ scan.components,
    component.cyclic = false) ?_ fun scan entry rest h => ?_
  · exact fun _ h => absurd h List.not_mem_nil
  · unfold scanToken
    exact Returns.bind (Returns.trivial _) fun _ _ => Returns.pure (addToComponent_unmarked h)

/-- A marked component has the marked root or was marked before. -/
theorem cyclic_of_mem_markCyclic {root : Nat} {components : List DiscoveryComponent}
    {component : DiscoveryComponent} (h : component ∈ markCyclic root components)
    (hcyclic : component.cyclic = true) : component.root = root ∨ component ∈ components := by
  obtain ⟨old, hold, heq⟩ := List.mem_map.mp h
  by_cases hroot : old.root = root
  · rw [if_pos hroot] at heq
    exact Or.inl (heq ▸ hroot)
  · rw [if_neg hroot] at heq
    exact Or.inr (heq ▸ hold)

theorem markVertex_only (budget : Budget) {sets : DisjointTokenSets} (hsets : sets.Sound)
    {tokenAt : List String} (hsize : sets.size = tokenAt.length)
    {components0 : List DiscoveryComponent} {indegree : Nat → Nat} {v : Nat} {rest : List Nat}
    {scan : ComponentScan} (h : Marked sets tokenAt components0 indegree (v :: rest) scan)
    (honly : MarkedOnly sets tokenAt indegree scan.components) :
    Returns (markVertex budget indegree scan v) fun scan' =>
      MarkedOnly sets tokenAt indegree scan'.components := by
  have hlt := h.pending v List.mem_cons_self
  unfold markVertex
  refine Returns.bind (Returns.trivial _) fun _ _ => ?_
  by_cases hpos : 0 < indegree v
  · rw [if_pos hpos]
    obtain ⟨hroot, -⟩ := DisjointTokenSets.find_spec h.sound (v := v) (h.size ▸ hlt)
    have hroot0 : HasRoot sets.parent v (scan.sets.find v).1 := by
      have hfirst := (DisjointTokenSets.find_spec hsets (v := v) (hsize ▸ hlt)).1
      rwa [hroot.unique (h.roots _ _ hfirst)]
    refine Returns.pure fun component hmem hcyclic => ?_
    rcases cyclic_of_mem_markCyclic hmem hcyclic with heq | hold
    · exact ⟨v, hlt, heq ▸ hroot0, hpos⟩
    · exact honly component hold hcyclic
  · rw [if_neg hpos]
    exact Returns.pure honly

/-! ## The exact graph -/

/-- **What the components mean**: the two tokens of an offer have one, it holds the tokens linked to
them, and it is marked exactly when a directed cycle runs through one of its tokens. -/
structure GraphExact (offers : List Crossable) (graph : DiscoveryGraph) : Prop where
  owned : ∀ component ∈ graph.components, ∀ token ∈ component.tokens,
    graph.componentOf token = some component
  covers : ∀ offer ∈ offers, ∃ component, graph.componentOf offer.tokenIn = some component ∧
    graph.componentOf offer.tokenOut = some component
  weak : ∀ component ∈ graph.components, ∀ token ∈ component.tokens, ∀ other,
    other ∈ component.tokens ↔ Linked offers token other
  marked : ∀ component ∈ graph.components,
    (component.cyclic = true ↔ ∃ token ∈ component.tokens, OnCycle offers token)

/-- Linked tokens have one root. -/
theorem IndexHolds.linked_root {offers : List Crossable} {index : TokenIndex}
    (h : IndexHolds offers [] index) {token other : String} (hlinked : Linked offers token other) :
    token = other ∨ (token ∈ index.tokenAt ∧ other ∈ index.tokenAt ∧
      ∃ r, RootOf index.sets index.tokenAt token r ∧ RootOf index.sets index.tokenAt other r) := by
  induction hlinked with
  | rel token other hedge =>
    obtain ⟨offer, hoffer, rfl, rfl⟩ := hedge
    exact Or.inr ((h.united offer hoffer).resolve_left List.not_mem_nil)
  | refl token => exact Or.inl rfl
  | symm token other _ ih =>
    rcases ih with heq | ⟨hin, hout, r, hr, hr'⟩
    · exact Or.inl heq.symm
    · exact Or.inr ⟨hout, hin, r, hr', hr⟩
  | trans token middle other _ _ ih ih' =>
    rcases ih with rfl | ⟨hin, hmem, r, hr, hmid⟩
    · exact ih'
    · rcases ih' with rfl | ⟨-, hout, r', hmid', hr'⟩
      · exact Or.inr ⟨hin, hmem, r, hr, hmid⟩
      · exact Or.inr ⟨hin, hout, r, hr, hmid.unique hmid' ▸ hr'⟩

/-- Tokens of one root are linked. -/
theorem IndexLinked.linked {offers : List Crossable} {index : TokenIndex}
    (h : IndexLinked offers index) (hsize : index.sets.size = index.tokenAt.length)
    {token other : String} {r : Nat} (htoken : token ∈ index.tokenAt)
    (hother : other ∈ index.tokenAt) (hr : RootOf index.sets index.tokenAt token r)
    (hr' : RootOf index.sets index.tokenAt other r) : Linked offers token other := by
  have htokenroot := h _ (hsize ▸ indexIn_lt htoken) r hr
  have hotherroot := h _ (hsize ▸ indexIn_lt hother) r hr'
  unfold LinkedAt at htokenroot hotherroot
  rw [getD_indexIn htoken] at htokenroot
  rw [getD_indexIn hother] at hotherroot
  exact .trans _ _ _ htokenroot (.symm _ _ hotherroot)

section Stages

variable {budget : Budget} {offers : List Crossable} {index : TokenIndex}
  {scan : ComponentScan} {seeded drained : KahnState} {marked : ComponentScan}
  {graph : DiscoveryGraph}

/-- A component holds every token of its root. -/
theorem GraphStages.mem_tokens
    (h : GraphStages budget offers index scan seeded drained marked graph)
    (hsound : GraphSound offers graph) {component : DiscoveryComponent}
    (hmem : component ∈ graph.components) {token : String} (htoken : token ∈ index.tokenAt)
    (hroot : RootOf index.sets index.tokenAt token component.root) :
    token ∈ component.tokens := by
  obtain ⟨own, hown⟩ := hsound.component token (h.tokenAt ▸ htoken)
  obtain ⟨hownmem, htokenmem⟩ := componentOf_mem hown
  obtain ⟨-, hownroot⟩ := h.componentsHold.tokens own hownmem token htokenmem
  exact component_eq_of_root hsound hownmem hmem (hownroot.unique hroot) ▸ htokenmem

/-- The components are the weak components of the book. -/
theorem GraphStages.weak (h : GraphStages budget offers index scan seeded drained marked graph)
    (hsound : GraphSound offers graph) :
    ∀ component ∈ graph.components, ∀ token ∈ component.tokens, ∀ other,
      other ∈ component.tokens ↔ Linked offers token other := by
  intro component hmem token htoken other
  have hholds := h.componentsHold
  obtain ⟨hin, hroot⟩ := hholds.tokens component hmem token htoken
  constructor
  · intro hother
    obtain ⟨hout, hroot'⟩ := hholds.tokens component hmem other hother
    exact ((indexOffers_linked budget offers).of_ran h.index_ran).linked h.indexed.size hin hout
      hroot hroot'
  · intro hlinked
    rcases h.indexed.linked_root hlinked with rfl | ⟨-, hout, r, hr, hr'⟩
    · exact htoken
    · exact h.mem_tokens hsound hmem hout (hr.unique hroot ▸ hr')

theorem GraphStages.seed_complete
    (h : GraphStages budget offers index scan seeded drained marked graph) :
    KahnComplete index.tokenAt.length seeded ∧ seeded.removed = [] :=
  (seedQueue_complete budget index.tokenAt.length).of_ran h.seed_ran

/-- A vertex that keeps a positive indegree has an edge from another one. -/
theorem GraphStages.predecessor
    (h : GraphStages budget offers index scan seeded drained marked graph) {token : String}
    (htoken : token ∈ index.tokenAt) (hpos : 0 < drained.indegree (indexIn index.tokenAt token)) :
    ∃ previous ∈ index.tokenAt, 0 < drained.indegree (indexIn index.tokenAt previous) ∧
      Edge offers previous token := by
  have hunited := fun offer hoffer =>
    (h.indexed.united offer hoffer).resolve_left List.not_mem_nil
  have hheads : ∀ edge ∈ edgesOf index.tokenAt offers, edge.2 < index.tokenAt.length := by
    intro edge hedge
    obtain ⟨offer, hoffer, rfl⟩ := List.mem_map.mp hedge
    exact indexIn_lt (hunited offer hoffer).2.1
  obtain ⟨hcomplete, hnone⟩ := h.seed_complete
  have hdrained := (drainQueue_complete budget hheads index.tokenAt.length h.seed_holds hcomplete
    (by omega)).of_ran h.drain_ran
  have hpending := h.drain_holds.indegree (indexIn index.tokenAt token)
  rw [List.count_nil, add_zero] at hpending
  rw [hpending] at hpos
  obtain ⟨edge, hedge, hinto⟩ := List.countP_pos_iff.mp hpos
  obtain ⟨hhead, htail⟩ := of_decide_eq_true hinto
  obtain ⟨offer, hoffer, rfl⟩ := List.mem_map.mp hedge
  obtain ⟨hin, hout, -⟩ := hunited offer hoffer
  simp only at hhead htail
  have hpaid : offer.tokenOut = token := by
    rw [← getD_indexIn hout, hhead, getD_indexIn htoken]
  refine ⟨offer.tokenIn, hin, ?_, offer, hoffer, rfl, hpaid⟩
  by_contra hzero
  exact htail (hdrained _ (indexIn_lt hin) (by omega))

/-- What the last loop marks. -/
theorem GraphStages.marked_only
    (h : GraphStages budget offers index scan seeded drained marked graph) :
    MarkedOnly index.sets index.tokenAt drained.indegree marked.components := by
  have hunmarked := (scanTokens_unmarked budget index.sets index.tokenAt.zipIdx).of_ran h.scan_ran
  have hfold := Returns.foldlM (f := markVertex budget drained.indegree)
    (l := List.range index.tokenAt.length) (a := scan)
    (I := fun marked rest =>
      Marked index.sets index.tokenAt scan.components drained.indegree rest marked ∧
        MarkedOnly index.sets index.tokenAt drained.indegree marked.components) ?_ ?_
  · exact (hfold.of_ran h.mark_ran).2
  · refine ⟨h.scanned.marked_init drained.indegree, fun component hmem hcyclic => ?_⟩
    rw [hunmarked component hmem] at hcyclic
    cases hcyclic
  · rintro marked v rest ⟨hmarked, honly⟩
    exact (markVertex_returns budget h.indexed.sound h.indexed.size hmarked).and
      (markVertex_only budget h.indexed.sound h.indexed.size hmarked honly)

/-- The marked components are those with a cycle. -/
theorem GraphStages.marked_iff
    (h : GraphStages budget offers index scan seeded drained marked graph)
    (hsound : GraphSound offers graph) :
    ∀ component ∈ graph.components,
      (component.cyclic = true ↔ ∃ token ∈ component.tokens, OnCycle offers token) := by
  intro component hmem
  constructor
  · intro hcyclic
    obtain ⟨old, hold, hroot, hcyc, -⟩ := h.components.1 component hmem
    obtain ⟨v, hv, hvroot, hpos⟩ := h.marked_only old hold (hcyc ▸ hcyclic)
    -- the vertices of the component that the removal left
    let left := component.tokens.toFinset.filter fun token =>
      0 < drained.indegree (indexIn index.tokenAt token)
    have hleft : ∀ token, token ∈ left ↔ token ∈ component.tokens ∧
        0 < drained.indegree (indexIn index.tokenAt token) := fun token => by
      rw [Finset.mem_filter, List.mem_toFinset]
    have hfirst : left.Nonempty := by
      have hindex : indexIn index.tokenAt index.tokenAt[v] = v := h.indexed.nodup.idxOf_getElem v hv
      refine ⟨index.tokenAt[v], (hleft _).mpr ⟨?_, ?_⟩⟩
      · refine h.mem_tokens hsound hmem (List.getElem_mem hv) ?_
        unfold RootOf
        rwa [hindex, hroot]
      · rwa [hindex]
    obtain ⟨token, htoken, hcycle⟩ := exists_cycle_of_predecessors left hfirst (R := Edge offers)
      fun token htoken => by
        obtain ⟨hin, hpos⟩ := (hleft token).mp htoken
        obtain ⟨previous, -, hprevious, hedge⟩ := h.predecessor
          (h.componentsHold.tokens component hmem token hin).1 hpos
        refine ⟨previous, (hleft previous).mpr ⟨?_, hprevious⟩, hedge⟩
        exact (h.weak hsound component hmem token hin previous).mpr (.symm _ _ (.rel _ _ hedge))
    exact ⟨token, ((hleft token).mp htoken).1, hcycle⟩
  · rintro ⟨token, htoken, hcycle⟩
    by_contra hnot
    obtain ⟨position, hposition⟩ := hsound.acyclic
    have hown : graph.componentOf token = some component :=
      componentOf_eq (h.tokenAt ▸ h.componentsHold) hmem htoken
    have hlt := @lt_of_transGen _ (Edge offers) (fun token =>
      graph.componentOf token = some component) position ?_ ?_ token token hcycle hown
    · exact lt_irrefl _ hlt
    · rintro _ _ ⟨offer, hoffer, rfl, rfl⟩ hout
      exact (hsound.united offer hoffer).trans hout
    · rintro _ _ ⟨offer, hoffer, rfl, rfl⟩ hout
      exact hposition offer hoffer component hout (by simpa using hnot)

end Stages

/-- **`buildDiscoveryGraph`** returns an exact graph. -/
theorem buildDiscoveryGraph_exact (budget : Budget) (offers : List Crossable) :
    Returns (buildDiscoveryGraph budget offers) fun graph =>
      GraphSound offers graph ∧ GraphExact offers graph := by
  refine ((buildDiscoveryGraph_stages budget offers).and
    (buildDiscoveryGraph_returns budget offers)).mono ?_
  rintro graph ⟨⟨index, scan, seeded, drained, marked, hstages⟩, hsound⟩
  refine ⟨hsound, fun component hmem token htoken => ?_, fun offer hoffer => ?_,
    hstages.weak hsound, hstages.marked_iff hsound⟩
  · exact componentOf_eq (hstages.tokenAt ▸ hstages.componentsHold) hmem htoken
  · obtain ⟨component, hcomponent⟩ := hsound.component _ (hsound.indexed offer hoffer).1
    exact ⟨component, hcomponent, (hsound.united offer hoffer) ▸ hcomponent⟩

/-! ## The universes of a derivation -/

/-- A token some set of makers lacks is the input token of one of them. -/
theorem exists_taker {makers : Finset Crossable} (hvalid : ∀ offer ∈ makers, offer.Valid)
    {token : String} (hneg : setNet makers token < 0) : ∃ offer ∈ makers, offer.tokenIn = token := by
  by_contra hnone
  push Not at hnone
  have hsum : setNet makers token = ∑ offer ∈ makers, offer.net token := Finset.sum_apply _ _ _
  have hnonneg : 0 ≤ ∑ offer ∈ makers, offer.net token := by
    refine Finset.sum_nonneg fun offer hoffer => ?_
    have hpos := (hvalid offer hoffer).amountOut_pos
    unfold Crossable.net
    rw [Pi.sub_apply, Pi.single_eq_of_ne (hnone offer hoffer).symm, sub_zero]
    by_cases heq : token = offer.tokenOut
    · rw [heq, Pi.single_eq_same]
      exact hpos.le
    · rw [Pi.single_eq_of_ne heq]
  omega

/-- A token some set of makers supplies is the output token of one of them. -/
theorem exists_giver {makers : Finset Crossable} (hvalid : ∀ offer ∈ makers, offer.Valid)
    {token : String} (hpos : 0 < setNet makers token) : ∃ offer ∈ makers, offer.tokenOut = token := by
  by_contra hnone
  push Not at hnone
  have hsum : setNet makers token = ∑ offer ∈ makers, offer.net token := Finset.sum_apply _ _ _
  have hnonpos : ∑ offer ∈ makers, offer.net token ≤ 0 := by
    refine Finset.sum_nonpos fun offer hoffer => ?_
    have hpos := (hvalid offer hoffer).amountIn_pos
    unfold Crossable.net
    rw [Pi.sub_apply, Pi.single_eq_of_ne (hnone offer hoffer).symm, zero_sub]
    by_cases heq : token = offer.tokenIn
    · rw [heq, Pi.single_eq_same]
      omega
    · rw [Pi.single_eq_of_ne heq]
      omega
  omega

section Universes

variable {retained : List Crossable} {graph : DiscoveryGraph}

theorem mem_includedComponents {component own : DiscoveryComponent}
    (hown : own ∈ graph.components) :
    own ∈ includedComponents graph component ↔ own = component ∨ own.cyclic = true := by
  have hcyclics : own ∈ graph.components.filter (·.cyclic) ↔ own.cyclic = true := by
    rw [List.mem_filter, and_iff_right hown]
  unfold includedComponents
  by_cases hcyclic : component.cyclic = true
  · rw [if_pos hcyclic, hcyclics]
    exact ⟨Or.inr, fun h => h.elim (fun heq => heq ▸ hcyclic) id⟩
  · rw [if_neg hcyclic, List.mem_cons, hcyclics]

/-- **The universe of an input token**: its weak component and every component with a cycle. -/
theorem mem_universeOffers_iff (hsound : GraphSound retained graph)
    (hexact : GraphExact retained graph) {tokenIn : String} {component : DiscoveryComponent}
    (hcomponent : graph.componentOf tokenIn = some component) {offer : Crossable} :
    offer ∈ universeOffers graph retained component ↔ offer ∈ retained ∧
      (Linked retained tokenIn offer.tokenIn ∨
        ∃ token, Linked retained offer.tokenIn token ∧ OnCycle retained token) := by
  unfold universeOffers
  rw [List.mem_filter]
  refine and_congr_right fun hoffer => ?_
  obtain ⟨hmem, htoken⟩ := componentOf_mem hcomponent
  obtain ⟨own, hown⟩ := hsound.component _ (hsound.indexed offer hoffer).1
  obtain ⟨hownmem, hin⟩ := componentOf_mem hown
  have hroots : own.root ∈ (includedComponents graph component).map (·.root) ↔
      own ∈ includedComponents graph component := by
    refine ⟨fun h => ?_, List.mem_map_of_mem⟩
    obtain ⟨other, hother, hroot⟩ := List.mem_map.mp h
    have hothermem : other ∈ graph.components := by
      unfold includedComponents at hother
      simp only at hother
      split at hother
      · exact (List.mem_filter.mp hother).1
      · rcases List.mem_cons.mp hother with rfl | hother
        · exact hmem
        · exact (List.mem_filter.mp hother).1
    exact component_eq_of_root hsound hothermem hownmem hroot ▸ hother
  have hsame : own = component ↔ Linked retained tokenIn offer.tokenIn := by
    rw [← hexact.weak component hmem tokenIn htoken]
    refine ⟨fun h => h ▸ hin, fun h => ?_⟩
    exact Option.some.inj (hown.symm.trans (hexact.owned component hmem _ h))
  rw [hown, Option.any_some, List.contains_iff_mem, hroots, mem_includedComponents hownmem, hsame,
    hexact.marked own hownmem]
  refine or_congr_right ⟨?_, ?_⟩
  · rintro ⟨token, hmem, hcycle⟩
    exact ⟨token, (hexact.weak own hownmem _ hin token).mp hmem, hcycle⟩
  · rintro ⟨token, hlinked, hcycle⟩
    exact ⟨token, (hexact.weak own hownmem _ hin token).mpr hlinked, hcycle⟩

end Universes

/-- A cache that calls of `universeFor` fill. -/
inductive CacheReached (graph : DiscoveryGraph) (retained : List Crossable) :
    List (Nat × Universe) → Prop
  | start : CacheReached graph retained []
  | call {budget : Budget} {component : DiscoveryComponent} {s s' : Derivation}
      {result : Except DerivationExit (Except BudgetStop Universe)}
      (reached : CacheReached graph retained s.universes)
      (component_mem : component ∈ graph.components)
      (called : (universeFor budget graph retained component).outcome s = (result, s')) :
      CacheReached graph retained s'.universes

/-- What `universeFor` hands to the search for the input tokens of `component`. -/
def SearchedFor (graph : DiscoveryGraph) (retained : List Crossable)
    (component : DiscoveryComponent) (cachedUniverse : Universe) : Prop :=
  ∃ (budget : Budget) (s s' : Derivation), CacheReached graph retained s.universes ∧
    (universeFor budget graph retained component).outcome s = (.ok (.ok cachedUniverse), s')

theorem CacheReached.holds {graph : DiscoveryGraph} {retained : List Crossable}
    (hsound : GraphSound retained graph) {universes : List (Nat × Universe)}
    (h : CacheReached graph retained universes) : CacheHolds graph retained universes := by
  induction h with
  | start => exact fun _ h => absurd h List.not_mem_nil
  | @call budget component s s' result _ hmem hcalled ih =>
    have hcached := @universeFor_cached budget graph retained hsound component hmem
      (fun _ => True) s ⟨trivial, ih⟩
    rw [hcalled] at hcached
    cases result with
    | ok result => exact hcached.1.2
    | error exit => exact hcached.2

/-- Cached or built, the universe is that of the component. -/
theorem SearchedFor.universeOf {graph : DiscoveryGraph} {retained : List Crossable}
    (hsound : GraphSound retained graph) {component : DiscoveryComponent}
    (hmem : component ∈ graph.components) {cachedUniverse : Universe}
    (h : SearchedFor graph retained component cachedUniverse) :
    UniverseOf graph retained component cachedUniverse := by
  obtain ⟨budget, s, s', hreached, hcalled⟩ := h
  have hcached := @universeFor_cached budget graph retained hsound component hmem
    (fun _ => True) s ⟨trivial, hreached.holds hsound⟩
  rw [hcalled] at hcached
  exact hcached.2 cachedUniverse rfl

/-- **Universe pruning is sound.** The discovery graph of a retained book is exact. A set of retained
offers with `tokenIn` as its only negative token and a positive `tokenOut` lies inside the universe
that is searched for `tokenIn`: the offers of the weak component of `tokenIn` and of every weak
component with a directed cycle. Both tokens are enumerated. -/
theorem universe_pruning_sound {offers : List LadderSourceOffer} {options : DeriveLadderOptions}
    {graph : DiscoveryGraph} (hgraph : GraphOf (retainedOffers offers options) graph) :
    GraphExact (retainedOffers offers options) graph ∧
    ∀ (makers : Finset Crossable) (tokenIn tokenOut : String),
      (∀ offer ∈ makers, offer ∈ retainedOffers offers options) →
      setNet makers tokenIn < 0 → (∀ token, setNet makers token < 0 → token = tokenIn) →
      0 < setNet makers tokenOut →
      tokenIn ∈ sortedSet ((retainedOffers offers options).map (·.tokenIn)) ∧
      ∃ component, graph.componentOf tokenIn = some component ∧
        ∀ cachedUniverse,
          SearchedFor graph (retainedOffers offers options) component cachedUniverse →
          (∀ offer, offer ∈ cachedUniverse.offers ↔ offer ∈ retainedOffers offers options ∧
            (Linked (retainedOffers offers options) tokenIn offer.tokenIn ∨
              ∃ token, Linked (retainedOffers offers options) offer.tokenIn token ∧
                OnCycle (retainedOffers offers options) token)) ∧
          (∀ offer ∈ makers, offer ∈ cachedUniverse.offers) ∧
          tokenOut ∈ cachedUniverse.outputs := by
  obtain ⟨budget, work, work', hbuilt⟩ := hgraph
  obtain ⟨hsound, hexact⟩ := buildDiscoveryGraph_exact budget _ work graph work' hbuilt
  refine ⟨hexact, fun makers tokenIn tokenOut hmakers hneg honly hpos => ?_⟩
  have hvalid : ∀ offer ∈ makers, offer.Valid := fun offer hoffer =>
    retainedOffers_valid (hmakers offer hoffer)
  obtain ⟨taker, htaker, rfl⟩ := exists_taker hvalid hneg
  obtain ⟨giver, hgiver, rfl⟩ := exists_giver hvalid hpos
  refine ⟨mem_sortedSet.mpr (List.mem_map_of_mem (hmakers taker htaker)), ?_⟩
  obtain ⟨component, hcomponent⟩ :=
    hsound.component _ (hsound.indexed taker (hmakers taker htaker)).1
  refine ⟨component, hcomponent, fun cachedUniverse hsearched => ?_⟩
  obtain ⟨huniverse, houtputs⟩ := hsearched.universeOf hsound (componentOf_mem hcomponent).1
  have hinside : ∀ offer ∈ makers, offer ∈ cachedUniverse.offers := fun offer hoffer => by
    have hnodup : makers.toList.Nodup := makers.nodup_toList
    have hnet : netSupply makers.toList = setNet makers := by
      rw [← setNet_toFinset hnodup, Finset.toList_toFinset]
    rw [huniverse]
    refine @mem_universeOffers _ graph hsound _ component hcomponent makers.toList
      (fun o ho => hmakers o (Finset.mem_toList.mp ho))
      (fun o ho => hvalid o (Finset.mem_toList.mp ho)) ?_ offer (Finset.mem_toList.mpr hoffer)
    rw [hnet]
    exact honly
  refine ⟨fun offer => ?_, hinside, ?_⟩
  · rw [huniverse]
    exact mem_universeOffers_iff hsound hexact hcomponent
  · rw [houtputs]
    exact mem_sortedSet.mpr (List.mem_map_of_mem (hinside giver hgiver))

theorem eq_ok_of_toOption {ε α : Type} {result : Except ε α} {a : α}
    (h : result.toOption = some a) : result = .ok a := by
  cases result with
  | error e => cases h
  | ok b => exact congrArg Except.ok (Option.some.inj h)

theorem GraphOf.of_run {retained : List Crossable} {budget : Budget} {work : Work}
    {graph : DiscoveryGraph}
    (h : ((buildDiscoveryGraph budget retained).outcome work).1.toOption = some graph) :
    GraphOf retained graph :=
  ⟨budget, work, _, Prod.ext (eq_ok_of_toOption h) rfl⟩

theorem SearchedFor.of_run {retained : List Crossable} {budget : Budget} {graph : DiscoveryGraph}
    {component : DiscoveryComponent} {cachedUniverse : Universe}
    (h : ((universeFor budget graph retained component).outcome ⟨{}, [], []⟩).1.toOption.bind
      Except.toOption = some cachedUniverse) :
    SearchedFor graph retained component cachedUniverse := by
  obtain ⟨result, hresult, hsearched⟩ := Option.bind_eq_some_iff.mp h
  rw [eq_ok_of_toOption hsearched] at hresult
  exact ⟨budget, _, _, .start, Prod.ext (eq_ok_of_toOption hresult) rfl⟩

namespace TwoOffers

/-- The one component of the book. -/
def component : DiscoveryComponent := ⟨0, tokenA, [tokenA, tokenB], false⟩

def graph : DiscoveryGraph := ⟨[tokenA, tokenB], [component]⟩

/-- Its universe. -/
def searched : Universe := ⟨retainedOffers book options, [tokenB]⟩

theorem graphOf : GraphOf (retainedOffers book options) graph :=
  @GraphOf.of_run _ ⟨hardLadderResourceLimits, none⟩ {} _ (by decide +kernel)

theorem searchedFor : SearchedFor graph (retainedOffers book options) component searched :=
  @SearchedFor.of_run _ ⟨hardLadderResourceLimits, none⟩ _ _ _ (by decide +kernel)

end TwoOffers

open TwoOffers in
/-- The two offers together lie inside the universe of the token they take. -/
theorem universe_pruning_sound_two_offers :
    (∀ offer ∈ (retainedOffers book options).toFinset, offer ∈ searched.offers) ∧
      tokenB ∈ searched.outputs := by
  have htaken : ∀ offer ∈ retainedOffers book options, offer.tokenIn = tokenA := by
    decide +kernel
  have hnodup : (retainedOffers book options).Nodup := nodup_of_sorted (retainedOffers_sorted _ _)
  have hsupply : netSupply (retainedOffers book options) tokenA < 0 ∧
      0 < netSupply (retainedOffers book options) tokenB := by decide +kernel
  rw [← setNet_toFinset hnodup] at hsupply
  have honly : ∀ token, setNet (retainedOffers book options).toFinset token < 0 →
      token = tokenA := by
    intro token hneg
    obtain ⟨offer, hoffer, rfl⟩ := exists_taker
      (fun o ho => retainedOffers_valid (List.mem_toFinset.mp ho)) hneg
    exact htaken offer (List.mem_toFinset.mp hoffer)
  obtain ⟨-, hsound⟩ := universe_pruning_sound graphOf
  obtain ⟨-, own, hown, hsearched⟩ := hsound (retainedOffers book options).toFinset tokenA tokenB
    (fun _ h => List.mem_toFinset.mp h) hsupply.1 honly hsupply.2
  have heq : graph.componentOf tokenA = some component := by decide +kernel
  obtain rfl : component = own := Option.some.inj (heq.symm.trans hown)
  exact (hsearched searched searchedFor).2

end ZswapKernel
