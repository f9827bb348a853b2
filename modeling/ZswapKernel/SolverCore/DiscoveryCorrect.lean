import ZswapKernel.Lib.ParentForest
import ZswapKernel.SolverCore.DeriveLadder
import ZswapKernel.SolverCore.MakerSets

/-!
# The discovery graph is sound

A set of makers that leaves `tokenIn` as its only deficit lies inside the universe that
`deriveLadder` searches for `tokenIn`. In an acyclic component Kahn's removal gives the tokens a
topological order; a set with an offer there takes some token it does not pay, the first of its
input tokens, so that token is `tokenIn` and the component is its own.

* `union_spec`, `find_spec` — the disjoint sets (over `ParentForest`).
* `GraphSound` — what `buildDiscoveryGraph` returns (`buildDiscoveryGraph_returns`).
* `mem_universeOffers` — the universe contains every feasible set.
-/

namespace ZswapKernel

open ParentForest Program

/-! ## Disjoint sets -/

namespace DisjointTokenSets

/-- Ranks increase along the parents. -/
abbrev Sound (sets : DisjointTokenSets) : Prop := Ranked sets.size sets.parent sets.rank

/-- Two vertices are in one set. -/
def Same (sets : DisjointTokenSets) (v w : Nat) : Prop :=
  ∃ r, HasRoot sets.parent v r ∧ HasRoot sets.parent w r

theorem rootFrom_hasRoot {sets : DisjointTokenSets} (h : sets.Sound) (fuel : Nat) {v : Nat}
    (hv : v < sets.size) (hfuel : (above sets.size sets.rank v).card ≤ fuel) :
    HasRoot sets.parent v (rootFrom sets.parent fuel v) := by
  induction fuel generalizing v with
  | zero =>
    have hroot : sets.parent v = v := by
      by_contra hne
      have := h.card_above_parent hv hne
      omega
    exact .root hroot
  | succ fuel ih =>
    unfold rootFrom
    by_cases hroot : sets.parent v = v
    · rw [if_pos hroot]
      exact .root hroot
    · rw [if_neg hroot]
      have := h.card_above_parent hv hroot
      exact .step hroot (ih (h.parent_lt v hv) (by omega))

/-- The compression loop changes no root and keeps the ranks. -/
theorem compress_spec {size root : Nat} {rank : Nat → Nat} (fuel : Nat) {parent : Nat → Nat}
    {cursor : Nat} (h : Ranked size parent rank) (hcursor : cursor < size)
    (hroot : HasRoot parent cursor root) :
    Ranked size (compress root fuel parent cursor) rank ∧
      ∀ v r, HasRoot parent v r → HasRoot (compress root fuel parent cursor) v r := by
  induction fuel generalizing parent cursor with
  | zero => exact ⟨h, fun _ _ hv => hv⟩
  | succ fuel ih =>
    unfold compress
    by_cases hfix : parent cursor = cursor
    · rw [if_pos hfix]
      exact ⟨h, fun _ _ hv => hv⟩
    · rw [if_neg hfix]
      obtain ⟨hlt, -, hrank⟩ := h.rank_le hcursor hroot
      have hne : cursor ≠ root := fun heq => hfix (heq ▸ hroot.fixed)
      have hranked : Ranked size (Function.update parent cursor root) rank := by
        refine ⟨fun v hv => ?_, fun v hv hv' => ?_⟩
        · by_cases heq : v = cursor
          · rwa [heq, Function.update_self]
          · rw [Function.update_of_ne heq]
            exact h.parent_lt v hv
        · by_cases heq : v = cursor
          · rw [heq, Function.update_self]
            exact hrank hne
          · rw [Function.update_of_ne heq] at hv' ⊢
            exact h.rank_lt v hv hv'
      have hnext : HasRoot parent (parent cursor) root := by
        cases hroot with
        | root hfix' => exact absurd hfix' hfix
        | step _ hnext => exact hnext
      obtain ⟨hranked', hkeeps⟩ := ih hranked (h.parent_lt cursor hcursor) (hroot.compress hnext)
      exact ⟨hranked', fun v r hv => hkeeps v r (hroot.compress hv)⟩

/-- **`find`** returns the root and changes none. -/
theorem find_spec {sets : DisjointTokenSets} (h : sets.Sound) {v : Nat} (hv : v < sets.size) :
    HasRoot sets.parent v (sets.find v).1 ∧ (sets.find v).2.Sound ∧
      (sets.find v).2.size = sets.size ∧
      ∀ w r, HasRoot sets.parent w r → HasRoot (sets.find v).2.parent w r := by
  have hroot := rootFrom_hasRoot h sets.size hv (card_above_lt hv).le
  obtain ⟨hranked, hkeeps⟩ := compress_spec sets.size h hv hroot
  exact ⟨hroot, hranked, rfl, hkeeps⟩

/-- Linking a root below one of no lower rank. -/
theorem link_ranked {sets : DisjointTokenSets} (h : sets.Sound) {a b : Nat} (ha : a < sets.size)
    (hroot : sets.parent a = a) (hrootb : sets.parent b = b) (hne : a ≠ b)
    (hrank : sets.rank b ≤ sets.rank a) :
    Ranked sets.size (Function.update sets.parent b a)
      (if sets.rank a = sets.rank b then Function.update sets.rank a (sets.rank a + 1)
        else sets.rank) := by
  refine ⟨fun v hv => ?_, fun v hv hv' => ?_⟩
  · by_cases heq : v = b
    · rwa [heq, Function.update_self]
    · rw [Function.update_of_ne heq]
      exact h.parent_lt v hv
  · by_cases heq : v = b
    · subst heq
      rw [Function.update_self]
      split
      · rw [Function.update_self, Function.update_of_ne hne.symm]
        omega
      · omega
    · rw [Function.update_of_ne heq] at hv' ⊢
      have hlt := h.rank_lt v hv hv'
      have hva : v ≠ a := fun h => hv' (h ▸ hroot)
      split
      · rw [Function.update_of_ne hva]
        by_cases hpa : sets.parent v = a
        · rw [hpa, Function.update_self]
          rw [hpa] at hlt
          omega
        · rwa [Function.update_of_ne hpa]
      · exact hlt

theorem link_same {parent : Nat → Nat} {a b l r : Nat} (ha : parent a = a) (hb : parent b = b)
    (hne : a ≠ b) {size : Nat} {rank : Nat → Nat}
    (hl : HasRoot parent l a ∨ HasRoot parent l b) (hr : HasRoot parent r a ∨ HasRoot parent r b) :
    Same ⟨size, Function.update parent b a, rank⟩ l r := by
  have hto : ∀ v, HasRoot parent v a ∨ HasRoot parent v b →
      HasRoot (Function.update parent b a) v a := by
    rintro v (hv | hv)
    · have := hv.link ha hb hne
      rwa [if_neg hne] at this
    · have := hv.link ha hb hne
      rwa [if_pos rfl] at this
  exact ⟨a, hto l hl, hto r hr⟩

theorem link_keeps {parent : Nat → Nat} {a b : Nat} (ha : parent a = a) (hb : parent b = b)
    (hne : a ≠ b) {size size' : Nat} {rank rank' : Nat → Nat} {v w : Nat}
    (h : Same ⟨size, parent, rank⟩ v w) : Same ⟨size', Function.update parent b a, rank'⟩ v w := by
  obtain ⟨s, hv, hw⟩ := h
  exact ⟨_, hv.link ha hb hne, hw.link ha hb hne⟩

/-- **`union`** puts its arguments in one set and separates nothing. -/
theorem union_spec {sets : DisjointTokenSets} (h : sets.Sound) {l r : Nat} (hl : l < sets.size)
    (hr : r < sets.size) :
    (sets.union l r).Sound ∧ (sets.union l r).size = sets.size ∧ (sets.union l r).Same l r ∧
      ∀ v w, sets.Same v w → (sets.union l r).Same v w := by
  obtain ⟨hroot1, h1, hsize1, hkeeps1⟩ := find_spec h hl
  have hr1 : r < (sets.find l).2.size := hsize1 ▸ hr
  obtain ⟨hroot2, h2, hsize2, hkeeps2⟩ := find_spec h1 hr1
  have hsame : ∀ v w, sets.Same v w → ((sets.find l).2.find r).2.Same v w := by
    rintro v w ⟨s, hv, hw⟩
    exact ⟨s, hkeeps2 _ _ (hkeeps1 _ _ hv), hkeeps2 _ _ (hkeeps1 _ _ hw)⟩
  have hrootl := hkeeps2 _ _ (hkeeps1 _ _ hroot1)
  have hrootr := hkeeps2 _ _ hroot2
  have hl2 : l < ((sets.find l).2.find r).2.size := by rw [hsize2, hsize1]; exact hl
  have hr2 : r < ((sets.find l).2.find r).2.size := by rw [hsize2, hsize1]; exact hr
  unfold union
  simp only
  by_cases heq : (sets.find l).1 = ((sets.find l).2.find r).1
  · rw [if_pos heq]
    refine ⟨h2, hsize2.trans hsize1, ⟨_, hrootl, ?_⟩, hsame⟩
    rw [heq]
    exact hrootr
  · rw [if_neg heq]
    by_cases hrank : ((sets.find l).2.find r).2.rank (sets.find l).1 <
        ((sets.find l).2.find r).2.rank ((sets.find l).2.find r).1
    · rw [if_pos hrank]
      refine ⟨link_ranked h2 (h2.rank_le hr2 hrootr).1 hrootr.fixed hrootl.fixed (Ne.symm heq)
        hrank.le, hsize2.trans hsize1, ?_, fun v w hvw => ?_⟩
      · exact link_same hrootr.fixed hrootl.fixed (Ne.symm heq) (Or.inr hrootl) (Or.inl hrootr)
      · exact link_keeps hrootr.fixed hrootl.fixed (Ne.symm heq) (hsame v w hvw)
    · rw [if_neg hrank]
      refine ⟨link_ranked h2 (h2.rank_le hl2 hrootl).1 hrootl.fixed hrootr.fixed heq
        (not_lt.mp hrank), hsize2.trans hsize1, ?_, fun v w hvw => ?_⟩
      · exact link_same hrootl.fixed hrootr.fixed heq (Or.inl hrootl) (Or.inr hrootr)
      · exact link_keeps hrootl.fixed hrootr.fixed heq (hsame v w hvw)

/-- **`add`** appends a singleton. -/
theorem add_spec {sets : DisjointTokenSets} (h : sets.Sound) :
    sets.add.Sound ∧ ∀ v w, v < sets.size → w < sets.size → sets.Same v w → sets.add.Same v w := by
  have hold : ∀ v, v < sets.size → sets.add.parent v = sets.parent v := fun v hv =>
    Function.update_of_ne hv.ne _ _
  have hrankold : ∀ v, v < sets.size → sets.add.rank v = sets.rank v := fun v hv =>
    Function.update_of_ne hv.ne _ _
  have hnew : sets.add.parent sets.size = sets.size := Function.update_self _ _ _
  have hkeeps : ∀ v r, HasRoot sets.parent v r → v < sets.size → HasRoot sets.add.parent v r := by
    intro v r hv
    induction hv with
    | root hroot => exact fun hlt => .root ((hold _ hlt).trans hroot)
    | step hne _ ih =>
      intro hlt
      refine .step ?_ ?_
      · rwa [hold _ hlt]
      · rw [hold _ hlt]
        exact ih (h.parent_lt _ hlt)
  refine ⟨⟨fun v hv => ?_, fun v hv hv' => ?_⟩, ?_⟩
  · rcases Nat.lt_succ_iff_lt_or_eq.mp hv with hlt | rfl
    · rw [hold v hlt]
      exact (h.parent_lt v hlt).trans (Nat.lt_succ_self _)
    · rw [hnew]
      exact Nat.lt_succ_self _
  · rcases Nat.lt_succ_iff_lt_or_eq.mp hv with hlt | rfl
    · rw [hold v hlt] at hv' ⊢
      rw [hrankold v hlt, hrankold _ (h.parent_lt v hlt)]
      exact h.rank_lt v hlt hv'
    · exact absurd hnew hv'
  · rintro v w hv hw ⟨r, hvr, hwr⟩
    exact ⟨r, hkeeps v r hvr hv, hkeeps w r hwr hw⟩

end DisjointTokenSets

/-! ## Kahn's removal -/

/-- The edges of the graph, by token index. -/
def edgesOf (tokenAt : List String) (offers : List Crossable) : List (Nat × Nat) :=
  offers.map fun offer => (indexIn tokenAt offer.tokenIn, indexIn tokenAt offer.tokenOut)

/-- The heads of the edges that leave `v`. -/
def headsFrom (edges : List (Nat × Nat)) (v : Nat) : List Nat :=
  (edges.filter (·.1 = v)).map (·.2)

/-- The edges into `v` whose tail has not been removed. -/
def pendingInto (edges : List (Nat × Nat)) (removed : List Nat) (v : Nat) : Nat :=
  edges.countP fun edge => edge.2 = v ∧ edge.1 ∉ removed

/-- Removing `w` settles the edges that leave it. -/
theorem pendingInto_concat (edges : List (Nat × Nat)) {removed : List Nat} {w : Nat}
    (hw : w ∉ removed) (v : Nat) : pendingInto edges removed v =
      pendingInto edges (removed ++ [w]) v + (headsFrom edges w).count v := by
  induction edges with
  | nil => rfl
  | cons edge edges ih =>
    obtain ⟨tail, head⟩ := edge
    unfold pendingInto headsFrom at *
    rw [List.countP_cons, List.countP_cons, ih]
    by_cases htail : tail = w
    · subst htail
      by_cases hhead : head = v
      · simp [hhead, hw]
        omega
      · simp [hhead]
    · by_cases hhead : head = v
      · simp [hhead, htail]
        omega
      · simp [hhead, htail]

/-- The state of the removal; `extra` holds the out-edges of the last removed vertex that are still
to be settled. -/
structure KahnHolds (edges : List (Nat × Nat)) (extra : List Nat) (state : KahnState) : Prop where
  indegree : ∀ v, state.indegree v = pendingInto edges state.removed v + extra.count v
  zero : ∀ v ∈ state.removed ++ state.queue, state.indegree v = 0
  nodup : (state.removed ++ state.queue).Nodup
  order : ∀ edge ∈ edges, edge.2 ∈ state.removed →
    state.removed.idxOf edge.1 < state.removed.idxOf edge.2

/-- With no edge left into `v`, every tail of `v` has been removed. -/
theorem KahnHolds.tail_removed {edges : List (Nat × Nat)} {state : KahnState}
    (h : KahnHolds edges [] state) {edge : Nat × Nat} (hedge : edge ∈ edges)
    (hzero : state.indegree edge.2 = 0) : edge.1 ∈ state.removed := by
  have hpending := h.indegree edge.2
  rw [hzero, List.count_nil, add_zero] at hpending
  by_contra hnot
  have := List.countP_eq_zero.mp hpending.symm edge hedge
  exact this (by simp [hnot])

/-- The removal order is topological where the indegrees ran out. -/
theorem KahnHolds.idxOf_lt {edges : List (Nat × Nat)} {state : KahnState}
    (h : KahnHolds edges [] state) {edge : Nat × Nat} (hedge : edge ∈ edges)
    (hzero : state.indegree edge.2 = 0) :
    state.removed.idxOf edge.1 < state.removed.idxOf edge.2 := by
  by_cases hmem : edge.2 ∈ state.removed
  · exact h.order edge hedge hmem
  · rw [List.idxOf_eq_length hmem]
    exact List.idxOf_lt_length_of_mem (h.tail_removed hedge hzero)

/-- Taking the next vertex from the queue. -/
theorem KahnHolds.pop {edges : List (Nat × Nat)} {state : KahnState}
    (h : KahnHolds edges [] state) {w : Nat} {queue : List Nat} (hqueue : state.queue = w :: queue) :
    KahnHolds edges (headsFrom edges w)
      { state with removed := state.removed ++ [w], queue } := by
  have hnodup := h.nodup
  rw [hqueue] at hnodup
  have hw : w ∉ state.removed := fun hmem =>
    (List.nodup_append.mp hnodup).2.2 w hmem w List.mem_cons_self rfl
  have hsplit : state.removed ++ [w] ++ queue = state.removed ++ state.queue := by
    rw [hqueue, List.append_assoc, List.singleton_append]
  refine ⟨fun v => ?_, ?_, ?_, fun edge hedge hmem => ?_⟩
  · rw [h.indegree v, pendingInto_concat edges hw v, List.count_nil, add_zero]
  · simp only [hsplit]
    exact h.zero
  · simp only [hsplit]
    exact h.nodup
  · have hold : ∀ v ∈ state.removed,
        (state.removed ++ [w]).idxOf v = state.removed.idxOf v := fun v hv => by
      rw [List.idxOf_append, if_pos hv]
    simp only at hmem ⊢
    rcases List.mem_append.mp hmem with hmem | hmem
    · have hlt := h.order edge hedge hmem
      have htail : edge.1 ∈ state.removed := by
        rw [← List.idxOf_lt_length_iff]
        exact hlt.trans (List.idxOf_lt_length_of_mem hmem)
      rwa [hold _ htail, hold _ hmem]
    · have hhead := List.mem_singleton.mp hmem
      have htail : edge.1 ∈ state.removed := h.tail_removed hedge (by
        rw [hhead]
        exact h.zero w (by simp [hqueue]))
      have hidx : (state.removed ++ [w]).idxOf w = state.removed.length := by
        rw [List.idxOf_append, if_neg hw]
        simp
      rw [hold _ htail, hhead, hidx]
      exact List.idxOf_lt_length_of_mem htail

/-- Settling one out-edge. -/
theorem removeEdge_returns (budget : Budget) {edges : List (Nat × Nat)} {state : KahnState}
    {output : Nat} {extra : List Nat} (h : KahnHolds edges (output :: extra) state) :
    Returns (removeEdge budget state output) (KahnHolds edges extra) := by
  have hpos : 0 < state.indegree output := by
    rw [h.indegree output, List.count_cons_self]
    omega
  have hout : output ∉ state.removed ++ state.queue := fun hmem =>
    absurd (h.zero output hmem) hpos.ne'
  have hindegree : ∀ v, Function.update state.indegree output (state.indegree output - 1) v =
      pendingInto edges state.removed v + extra.count v := by
    intro v
    have hv := h.indegree v
    by_cases heq : v = output
    · subst heq
      rw [List.count_cons_self] at hv
      rw [Function.update_self]
      omega
    · rw [List.count_cons_of_ne (Ne.symm heq)] at hv
      rw [Function.update_of_ne heq, hv]
  have hzero : ∀ v ∈ state.removed ++ state.queue,
      Function.update state.indegree output (state.indegree output - 1) v = 0 := fun v hv => by
    rw [Function.update_of_ne (ne_of_mem_of_not_mem hv hout)]
    exact h.zero v hv
  unfold removeEdge
  refine Returns.bind (Returns.trivial _) fun _ _ => Returns.pure ?_
  by_cases hlast : state.indegree output - 1 = 0
  · rw [if_pos hlast]
    refine ⟨hindegree, fun v hv => ?_, ?_, h.order⟩
    · simp only [← List.append_assoc] at hv
      rcases List.mem_append.mp hv with hv | hv
      · exact hzero v hv
      · rw [List.mem_singleton.mp hv]
        simp only [Function.update_self]
        exact hlast
    · simp only [← List.append_assoc]
      exact List.nodup_append.mpr ⟨h.nodup, List.nodup_singleton output, fun a ha b hb =>
        List.mem_singleton.mp hb ▸ ne_of_mem_of_not_mem ha hout⟩
  · rw [if_neg hlast]
    exact ⟨hindegree, hzero, h.nodup, h.order⟩

theorem drainQueue_returns (budget : Budget) {edges : List (Nat × Nat)} (fuel : Nat)
    {state : KahnState} (h : KahnHolds edges [] state) :
    Returns (drainQueue budget (headsFrom edges) fuel state) (KahnHolds edges []) := by
  induction fuel generalizing state with
  | zero => exact Returns.pure h
  | succ fuel ih =>
    unfold drainQueue
    cases hqueue : state.queue with
    | nil => exact Returns.pure h
    | cons w queue =>
      refine Returns.bind (Returns.trivial _) fun _ _ => ?_
      refine Returns.bind (R := KahnHolds edges []) ?_ fun state' h' => ih h'
      exact Returns.foldlM (I := fun state extra => KahnHolds edges extra state) (h.pop hqueue)
        fun _ _ _ hextra => removeEdge_returns budget hextra

theorem addEdge_returns (budget : Budget) (tokenAt : List String) (offers : List Crossable) :
    Returns (offers.foldlM (addEdge budget tokenAt) ⟨fun _ => 0, fun _ => []⟩) fun degrees =>
      (∀ v, degrees.indegree v = pendingInto (edgesOf tokenAt offers) [] v) ∧
        degrees.outgoing = headsFrom (edgesOf tokenAt offers) := by
  have hfold := Returns.foldlM (f := addEdge budget tokenAt) (l := offers)
    (a := ⟨fun _ => 0, fun _ => []⟩)
    (I := fun degrees rest => ∃ done, offers = done ++ rest ∧
      (∀ v, degrees.indegree v = pendingInto (edgesOf tokenAt done) [] v) ∧
      degrees.outgoing = headsFrom (edgesOf tokenAt done))
    ⟨[], rfl, fun _ => rfl, rfl⟩ ?_
  · refine hfold.mono ?_
    rintro degrees ⟨done, hdone, hdegrees⟩
    rw [List.append_nil] at hdone
    exact hdone ▸ hdegrees
  · rintro degrees offer rest ⟨done, hdone, hindegree, houtgoing⟩
    unfold addEdge
    refine Returns.bind (Returns.trivial _) fun _ _ => Returns.pure
      ⟨done ++ [offer], by rw [hdone, List.append_assoc, List.singleton_append], fun v => ?_, ?_⟩
    · simp only [edgesOf, List.map_append, List.map_cons, List.map_nil, pendingInto,
        List.countP_append] at hindegree ⊢
      by_cases heq : v = indexIn tokenAt offer.tokenOut
      · subst heq
        rw [Function.update_self, hindegree]
        simp
      · rw [Function.update_of_ne heq, hindegree]
        simp [Ne.symm heq]
    · funext v
      simp only [edgesOf, List.map_append, List.map_cons, List.map_nil, headsFrom,
        List.filter_append, houtgoing]
      by_cases heq : v = indexIn tokenAt offer.tokenIn
      · subst heq
        simp
      · rw [Function.update_of_ne heq]
        simp [Ne.symm heq, headsFrom]

theorem seedQueue_returns (budget : Budget) {indegree : Nat → Nat} (size : Nat) :
    Returns ((List.range size).foldlM (seedQueue budget) ⟨indegree, [], []⟩) fun state =>
      state.indegree = indegree ∧ state.removed = [] ∧ state.queue.Nodup ∧
        ∀ v ∈ state.queue, indegree v = 0 := by
  have hfold := Returns.foldlM (f := seedQueue budget) (l := List.range size)
    (a := ⟨indegree, [], []⟩)
    (I := fun state rest => state.indegree = indegree ∧ state.removed = [] ∧
      (state.queue ++ rest).Nodup ∧ ∀ v ∈ state.queue, indegree v = 0)
    ⟨rfl, rfl, by simpa using List.nodup_range, by simp⟩ ?_
  · refine hfold.mono ?_
    rintro state ⟨h1, h2, h3, h4⟩
    exact ⟨h1, h2, by simpa using h3, h4⟩
  · rintro state v rest ⟨hindegree, hremoved, hnodup, hzero⟩
    unfold seedQueue
    refine Returns.bind (Returns.trivial _) fun _ _ => Returns.pure ?_
    split
    · rename_i hv
      refine ⟨hindegree, hremoved, by simpa using hnodup, fun w hw => ?_⟩
      rcases List.mem_append.mp hw with hw | hw
      · exact hzero w hw
      · rw [List.mem_singleton.mp hw, ← hindegree]
        exact hv
    · exact ⟨hindegree, hremoved, hnodup.sublist (by simp), hzero⟩

/-! ## Components -/

/-- The token index while the edges are read: the offers before `rest` are indexed and united. -/
structure IndexHolds (offers rest : List Crossable) (index : TokenIndex) : Prop where
  sound : index.sets.Sound
  size : index.sets.size = index.tokenAt.length
  nodup : index.tokenAt.Nodup
  united : ∀ offer ∈ offers, offer ∈ rest ∨ (offer.tokenIn ∈ index.tokenAt ∧
    offer.tokenOut ∈ index.tokenAt ∧ index.sets.Same (indexIn index.tokenAt offer.tokenIn)
      (indexIn index.tokenAt offer.tokenOut))

theorem indexIn_lt {tokenAt : List String} {token : String} (h : token ∈ tokenAt) :
    indexIn tokenAt token < tokenAt.length := List.idxOf_lt_length_of_mem h

theorem indexIn_append {tokenAt : List String} {token : String} (h : token ∈ tokenAt)
    (more : List String) : indexIn (tokenAt ++ more) token = indexIn tokenAt token := by
  unfold indexIn
  rw [List.idxOf_append, if_pos h]

/-- Indexing a token keeps what was indexed. -/
theorem indexFor_returns (budget : Budget) {offers rest : List Crossable} {index : TokenIndex}
    (h : IndexHolds offers rest index) (token : String) :
    Returns (indexFor budget index token) fun index' =>
      IndexHolds offers rest index' ∧ token ∈ index'.tokenAt ∧
        ∀ other ∈ index.tokenAt, other ∈ index'.tokenAt := by
  unfold indexFor
  by_cases hmem : token ∈ index.tokenAt
  · rw [if_pos hmem]
    exact Returns.pure ⟨h, hmem, fun _ ho => ho⟩
  · rw [if_neg hmem]
    obtain ⟨hsound, hkeeps⟩ := DisjointTokenSets.add_spec h.sound
    refine Returns.bind (Returns.trivial _) fun _ _ => Returns.pure ⟨⟨hsound, ?_, ?_, ?_⟩, ?_, ?_⟩
    · show index.sets.size + 1 = _
      rw [List.length_append, h.size]
      rfl
    · exact List.nodup_append.mpr ⟨h.nodup, List.nodup_singleton token, fun a ha b hb =>
        List.mem_singleton.mp hb ▸ ne_of_mem_of_not_mem ha hmem⟩
    · intro offer hoffer
      refine (h.united offer hoffer).imp_right ?_
      rintro ⟨hin, hout, hsame⟩
      refine ⟨List.mem_append_left _ hin, List.mem_append_left _ hout, ?_⟩
      rw [indexIn_append hin, indexIn_append hout]
      exact hkeeps _ _ (h.size ▸ indexIn_lt hin) (h.size ▸ indexIn_lt hout) hsame
    · exact List.mem_append_right _ List.mem_cons_self
    · exact fun other ho => List.mem_append_left _ ho

theorem indexOffer_returns (budget : Budget) {offers rest : List Crossable} {index : TokenIndex}
    {offer : Crossable} (h : IndexHolds offers (offer :: rest) index) :
    Returns (indexOffer budget index offer) (IndexHolds offers rest) := by
  unfold indexOffer
  refine Returns.bind (indexFor_returns budget h offer.tokenIn) fun index1 h1 => ?_
  obtain ⟨h1, hin1, -⟩ := h1
  refine Returns.bind (indexFor_returns budget h1 offer.tokenOut) fun index2 h2 => ?_
  obtain ⟨h2, hout, hkeeps⟩ := h2
  have hin := hkeeps _ hin1
  obtain ⟨hsound, hsize, hsame, hunion⟩ := DisjointTokenSets.union_spec h2.sound
    (h2.size ▸ indexIn_lt hin) (h2.size ▸ indexIn_lt hout)
  refine Returns.bind (Returns.trivial _) fun _ _ => Returns.pure
    ⟨hsound, hsize.trans h2.size, h2.nodup, fun other hother => ?_⟩
  rcases h2.united other hother with hmem | ⟨hi, ho, hs⟩
  · rcases List.mem_cons.mp hmem with rfl | hmem
    · exact Or.inr ⟨hin, hout, hsame⟩
    · exact Or.inl hmem
  · exact Or.inr ⟨hi, ho, hunion _ _ hs⟩

/-- The root of a token in the sets. -/
def RootOf (sets : DisjointTokenSets) (tokenAt : List String) (token : String) (root : Nat) :
    Prop := HasRoot sets.parent (indexIn tokenAt token) root

/-- The components while the tokens are read: one for each root, holding tokens of that root. -/
structure ComponentsHold (sets : DisjointTokenSets) (tokenAt : List String)
    (components : List DiscoveryComponent) : Prop where
  distinct : components.Pairwise (·.root ≠ ·.root)
  tokens : ∀ component ∈ components, ∀ token ∈ component.tokens,
    token ∈ tokenAt ∧ RootOf sets tokenAt token component.root

theorem mem_addToComponent {root : Nat} {token : String} {components : List DiscoveryComponent}
    {component : DiscoveryComponent} (h : component ∈ addToComponent root token components) :
    component ∈ components ∨ (component.root = root ∧ ∀ other ∈ component.tokens, other = token ∨
      ∃ old ∈ components, old.root = root ∧ other ∈ old.tokens) := by
  induction components with
  | nil =>
    rw [addToComponent, List.mem_singleton] at h
    subst h
    exact Or.inr ⟨rfl, fun other ho => Or.inl (List.mem_singleton.mp ho)⟩
  | cons head components ih =>
    unfold addToComponent at h
    split at h
    · rename_i hroot
      rcases List.mem_cons.mp h with rfl | hmem
      · refine Or.inr ⟨hroot, fun other ho => ?_⟩
        rcases List.mem_append.mp ho with ho | ho
        · exact Or.inr ⟨head, List.mem_cons_self, hroot, ho⟩
        · exact Or.inl (List.mem_singleton.mp ho)
      · exact Or.inl (List.mem_cons_of_mem _ hmem)
    · rcases List.mem_cons.mp h with rfl | hmem
      · exact Or.inl List.mem_cons_self
      · refine (ih hmem).imp (List.mem_cons_of_mem _) (And.imp_right fun hall other ho => ?_)
        refine (hall other ho).imp_right ?_
        rintro ⟨old, hold, hold'⟩
        exact ⟨old, List.mem_cons_of_mem _ hold, hold'⟩

theorem mem_root_addToComponent (root : Nat) (token : String)
    (components : List DiscoveryComponent) {component : DiscoveryComponent}
    (h : component ∈ addToComponent root token components) :
    component.root = root ∨ ∃ old ∈ components, old.root = component.root := by
  rcases mem_addToComponent h with hmem | ⟨hroot, -⟩
  · exact Or.inr ⟨component, hmem, rfl⟩
  · exact Or.inl hroot

theorem pairwise_addToComponent (root : Nat) (token : String)
    {components : List DiscoveryComponent} (h : components.Pairwise (·.root ≠ ·.root)) :
    (addToComponent root token components).Pairwise (·.root ≠ ·.root) := by
  induction components with
  | nil => exact List.pairwise_singleton _ _
  | cons head components ih =>
    obtain ⟨hhead, htail⟩ := List.pairwise_cons.mp h
    unfold addToComponent
    split
    · exact List.pairwise_cons.mpr ⟨hhead, htail⟩
    · rename_i hne
      refine List.pairwise_cons.mpr ⟨fun component hmem => ?_, ih htail⟩
      rcases mem_root_addToComponent root token components hmem with hroot | ⟨old, hold, hroot⟩
      · rw [hroot]
        exact hne
      · rw [← hroot]
        exact hhead old hold

/-- The component of the root gets the token, and no token is lost. -/
theorem addToComponent_covers (root : Nat) (token : String) (components : List DiscoveryComponent) :
    (∃ component ∈ addToComponent root token components, token ∈ component.tokens) ∧
    ∀ component ∈ components, ∀ other ∈ component.tokens,
      ∃ component' ∈ addToComponent root token components, other ∈ component'.tokens := by
  induction components with
  | nil => exact ⟨⟨_, List.mem_cons_self, List.mem_cons_self⟩, fun _ h => absurd h List.not_mem_nil⟩
  | cons head components ih =>
    unfold addToComponent
    split
    · refine ⟨⟨_, List.mem_cons_self, by simp⟩, fun component hmem other ho => ?_⟩
      rcases List.mem_cons.mp hmem with rfl | hmem
      · exact ⟨_, List.mem_cons_self, List.mem_append_left _ ho⟩
      · exact ⟨component, List.mem_cons_of_mem _ hmem, ho⟩
    · obtain ⟨⟨component, hcomponent, htoken⟩, hkeeps⟩ := ih
      refine ⟨⟨component, List.mem_cons_of_mem _ hcomponent, htoken⟩, fun component hmem other ho => ?_⟩
      rcases List.mem_cons.mp hmem with rfl | hmem
      · exact ⟨component, List.mem_cons_self, ho⟩
      · obtain ⟨component', hmem', ho'⟩ := hkeeps component hmem other ho
        exact ⟨component', List.mem_cons_of_mem _ hmem', ho'⟩

/-- The scan of the tokens: the sets keep their roots, and each token read is in a component. -/
structure TokensScanned (sets : DisjointTokenSets) (tokenAt : List String)
    (rest : List (String × Nat)) (scan : ComponentScan) : Prop where
  sound : scan.sets.Sound
  size : scan.sets.size = tokenAt.length
  roots : ∀ v r, HasRoot sets.parent v r → HasRoot scan.sets.parent v r
  components : ComponentsHold sets tokenAt scan.components
  pending : ∀ entry ∈ rest, entry ∈ tokenAt.zipIdx
  covered : ∀ entry ∈ tokenAt.zipIdx, entry ∈ rest ∨
    ∃ component ∈ scan.components, entry.1 ∈ component.tokens

theorem indexIn_of_mem_zipIdx {tokenAt : List String} (hnodup : tokenAt.Nodup)
    {entry : String × Nat} (h : entry ∈ tokenAt.zipIdx) :
    entry.1 ∈ tokenAt ∧ indexIn tokenAt entry.1 = entry.2 := by
  have hget := zipIdx_getElem? h
  obtain ⟨hlt, heq⟩ := List.getElem?_eq_some_iff.mp hget
  rw [← heq]
  exact ⟨List.getElem_mem hlt, hnodup.idxOf_getElem _ hlt⟩

theorem scanToken_returns (budget : Budget) {sets : DisjointTokenSets} (hsets : sets.Sound)
    {tokenAt : List String} (hsize : sets.size = tokenAt.length) (hnodup : tokenAt.Nodup)
    {rest : List (String × Nat)} {entry : String × Nat} {scan : ComponentScan}
    (h : TokensScanned sets tokenAt (entry :: rest) scan) :
    Returns (scanToken budget scan entry) (TokensScanned sets tokenAt rest) := by
  obtain ⟨hmem, hindex⟩ := indexIn_of_mem_zipIdx hnodup (h.pending entry List.mem_cons_self)
  have hlt : entry.2 < tokenAt.length := hindex ▸ indexIn_lt hmem
  obtain ⟨hroot, hsound, hsize', hkeeps⟩ := DisjointTokenSets.find_spec h.sound (v := entry.2)
    (h.size ▸ hlt)
  have hroot0 : HasRoot sets.parent entry.2 (scan.sets.find entry.2).1 := by
    have hfirst := (DisjointTokenSets.find_spec hsets (v := entry.2) (hsize ▸ hlt)).1
    rwa [hroot.unique (h.roots _ _ hfirst)]
  have htoken : RootOf sets tokenAt entry.1 (scan.sets.find entry.2).1 := by
    unfold RootOf
    rwa [hindex]
  obtain ⟨⟨component, hcomponent, hin⟩, hcovers⟩ :=
    addToComponent_covers (scan.sets.find entry.2).1 entry.1 scan.components
  unfold scanToken
  refine Returns.bind (Returns.trivial _) fun _ _ => Returns.pure ?_
  refine ⟨hsound, hsize'.trans h.size, fun v r hv => hkeeps v r (h.roots v r hv), ⟨?_, ?_⟩,
    fun e he => h.pending e (List.mem_cons_of_mem _ he), fun e he => ?_⟩
  · exact pairwise_addToComponent _ _ h.components.distinct
  · intro component hmem' token ht
    rcases mem_addToComponent hmem' with hold | ⟨hcroot, hall⟩
    · exact h.components.tokens component hold token ht
    · rw [hcroot]
      rcases hall token ht with rfl | ⟨old, hold, holdroot, ht'⟩
      · exact ⟨hmem, htoken⟩
      · exact holdroot ▸ h.components.tokens old hold token ht'
  · rcases h.covered e he with hrest | ⟨old, hold, ht⟩
    · rcases List.mem_cons.mp hrest with rfl | hrest
      · exact Or.inr ⟨component, hcomponent, hin⟩
      · exact Or.inl hrest
    · exact Or.inr (hcovers old hold e.1 ht)

/-- The marking of the cyclic components: roots and tokens stay, and a component left unmarked has
no vertex of positive indegree among those seen. -/
structure Marked (sets : DisjointTokenSets) (tokenAt : List String)
    (components0 : List DiscoveryComponent) (indegree : Nat → Nat) (rest : List Nat)
    (scan : ComponentScan) : Prop where
  sound : scan.sets.Sound
  size : scan.sets.size = tokenAt.length
  roots : ∀ v r, HasRoot sets.parent v r → HasRoot scan.sets.parent v r
  shape : scan.components.map (fun c => (c.root, c.tokens)) =
    components0.map fun c => (c.root, c.tokens)
  pending : ∀ v ∈ rest, v < tokenAt.length
  acyclic : ∀ component ∈ scan.components, component.cyclic = false → ∀ v < tokenAt.length,
    v ∈ rest ∨ (HasRoot sets.parent v component.root → indegree v = 0)

theorem markCyclic_shape (root : Nat) (components : List DiscoveryComponent) :
    (markCyclic root components).map (fun c => (c.root, c.tokens)) =
      components.map fun c => (c.root, c.tokens) := by
  unfold markCyclic
  rw [List.map_map]
  refine List.map_congr_left fun component _ => ?_
  simp only [Function.comp]
  split <;> rfl

/-- A component left unmarked is an old one of another root. -/
theorem mem_markCyclic {root : Nat} {components : List DiscoveryComponent}
    {component : DiscoveryComponent} (h : component ∈ markCyclic root components)
    (hcyclic : component.cyclic = false) : component ∈ components ∧ component.root ≠ root := by
  obtain ⟨old, hold, heq⟩ := List.mem_map.mp h
  by_cases hroot : old.root = root
  · rw [if_pos hroot] at heq
    rw [← heq] at hcyclic
    cases hcyclic
  · rw [if_neg hroot] at heq
    exact heq ▸ ⟨hold, hroot⟩

theorem markVertex_returns (budget : Budget) {sets : DisjointTokenSets} (hsets : sets.Sound)
    {tokenAt : List String} (hsize : sets.size = tokenAt.length)
    {components0 : List DiscoveryComponent} {indegree : Nat → Nat} {v : Nat} {rest : List Nat}
    {scan : ComponentScan} (h : Marked sets tokenAt components0 indegree (v :: rest) scan) :
    Returns (markVertex budget indegree scan v)
      (Marked sets tokenAt components0 indegree rest) := by
  have hlt := h.pending v List.mem_cons_self
  have hpending : ∀ w ∈ rest, w < tokenAt.length := fun w hw =>
    h.pending w (List.mem_cons_of_mem _ hw)
  unfold markVertex
  refine Returns.bind (Returns.trivial _) fun _ _ => ?_
  by_cases hpos : 0 < indegree v
  · rw [if_pos hpos]
    obtain ⟨hroot, hsound, hsize', hkeeps⟩ := DisjointTokenSets.find_spec h.sound (v := v)
      (h.size ▸ hlt)
    have hroot0 : HasRoot sets.parent v (scan.sets.find v).1 := by
      have hfirst := (DisjointTokenSets.find_spec hsets (v := v) (hsize ▸ hlt)).1
      rwa [hroot.unique (h.roots _ _ hfirst)]
    refine Returns.pure ⟨hsound, hsize'.trans h.size, fun w r hw => hkeeps w r (h.roots w r hw),
      (markCyclic_shape _ _).trans h.shape, hpending, ?_⟩
    intro component hmem hcyclic w hw
    obtain ⟨hold, hne⟩ := mem_markCyclic hmem hcyclic
    rcases h.acyclic component hold hcyclic w hw with hrest | hzero
    · rcases List.mem_cons.mp hrest with rfl | hrest
      · exact Or.inr fun hw' => absurd (hw'.unique hroot0) hne
      · exact Or.inl hrest
    · exact Or.inr hzero
  · rw [if_neg hpos]
    refine Returns.pure ⟨h.sound, h.size, h.roots, h.shape, hpending, ?_⟩
    intro component hmem hcyclic w hw
    rcases h.acyclic component hmem hcyclic w hw with hrest | hzero
    · rcases List.mem_cons.mp hrest with rfl | hrest
      · exact Or.inr fun _ => by omega
      · exact Or.inl hrest
    · exact Or.inr hzero

/-! ## The graph -/

/-- **What the discovery graph says**: every token has one component, an offer's two tokens share
it, and in an acyclic component the tokens can be numbered along the offers. -/
structure GraphSound (offers : List Crossable) (graph : DiscoveryGraph) : Prop where
  nodup : graph.tokenAt.Nodup
  indexed : Indexed graph.tokenAt offers
  component : ∀ token ∈ graph.tokenAt, ∃ component, graph.componentOf token = some component
  united : ∀ offer ∈ offers, graph.componentOf offer.tokenIn = graph.componentOf offer.tokenOut
  distinct : graph.components.Pairwise (·.root ≠ ·.root)
  acyclic : ∃ position : String → Nat, ∀ offer ∈ offers, ∀ component,
    graph.componentOf offer.tokenOut = some component → component.cyclic = false →
      position offer.tokenIn < position offer.tokenOut

theorem componentOf_mem {graph : DiscoveryGraph} {token : String} {component : DiscoveryComponent}
    (h : graph.componentOf token = some component) :
    component ∈ graph.components ∧ token ∈ component.tokens :=
  ⟨List.mem_of_find?_eq_some h, by simpa using List.find?_some h⟩

/-- The component of a token is the one that holds it. -/
theorem componentOf_eq {sets : DisjointTokenSets} {graph : DiscoveryGraph}
    (h : ComponentsHold sets graph.tokenAt graph.components) {token : String}
    {component : DiscoveryComponent} (hmem : component ∈ graph.components)
    (htoken : token ∈ component.tokens) : graph.componentOf token = some component := by
  cases hfind : graph.componentOf token with
  | none =>
    have := List.find?_eq_none.mp hfind component hmem
    exact absurd htoken (by simpa using this)
  | some other =>
    obtain ⟨hother, htoken'⟩ := componentOf_mem hfind
    have hroot : other.root = component.root :=
      (h.tokens other hother token htoken').2.unique (h.tokens component hmem token htoken).2
    have : Std.Symm fun a b : DiscoveryComponent => a.root ≠ b.root := ⟨fun _ _ hab => Ne.symm hab⟩
    by_contra hne
    exact h.distinct.forall hother hmem (fun heq => hne (heq ▸ rfl)) hroot

/-- The sorted components are the marked ones with their tokens reordered. -/
theorem sortTokens_returns (budget : Budget) (component : DiscoveryComponent) :
    Returns (sortTokens budget component) fun sorted => sorted.root = component.root ∧
      sorted.cyclic = component.cyclic ∧ ∀ token, token ∈ sorted.tokens ↔ token ∈ component.tokens :=
  Returns.bind (Returns.trivial _) fun _ _ => Returns.pure
    ⟨rfl, rfl, fun _ => List.mem_insertionSort _⟩

theorem exists_of_forall2 {α β : Type} {R : α → β → Prop} {l : List α} {l' : List β}
    (h : List.Forall₂ R l l') {a : α} (ha : a ∈ l) : ∃ b ∈ l', R a b := by
  induction h with
  | nil => exact absurd ha List.not_mem_nil
  | cons hab _ ih =>
    rcases List.mem_cons.mp ha with rfl | hmem
    · exact ⟨_, List.mem_cons_self, hab⟩
    · obtain ⟨b, hb, hrel⟩ := ih hmem
      exact ⟨b, List.mem_cons_of_mem _ hb, hrel⟩

theorem forall2_map_eq {α β γ : Type} {f : α → γ} {g : β → γ} {l : List α} {l' : List β}
    (h : List.Forall₂ (fun a b => f a = g b) l l') : l.map f = l'.map g := by
  induction h with
  | nil => rfl
  | cons hab _ ih => rw [List.map_cons, List.map_cons, hab, ih]

theorem tokensScanned_init {sets : DisjointTokenSets} (hsets : sets.Sound)
    {tokenAt : List String} (hsize : sets.size = tokenAt.length) :
    TokensScanned sets tokenAt tokenAt.zipIdx ⟨sets, []⟩ :=
  ⟨hsets, hsize, fun _ _ h => h, ⟨List.Pairwise.nil, by simp⟩, fun _ h => h, fun _ h => Or.inl h⟩

theorem TokensScanned.marked_init {sets : DisjointTokenSets} {tokenAt : List String}
    {scan : ComponentScan} (h : TokensScanned sets tokenAt [] scan) (indegree : Nat → Nat) :
    Marked sets tokenAt scan.components indegree (List.range tokenAt.length) scan :=
  ⟨h.sound, h.size, h.roots, rfl, fun _ hv => List.mem_range.mp hv,
    fun _ _ _ _ hv => Or.inl (List.mem_range.mpr hv)⟩

/-- Components with the same roots and tokens hold the same. -/
theorem ComponentsHold.of_shape {sets : DisjointTokenSets} {tokenAt : List String}
    {components components' : List DiscoveryComponent} (h : ComponentsHold sets tokenAt components)
    (hshape : components'.map (fun c => (c.root, c.tokens)) =
      components.map fun c => (c.root, c.tokens)) : ComponentsHold sets tokenAt components' := by
  have hroots : components'.map (·.root) = components.map (·.root) := by
    simpa [Function.comp_def] using congrArg (List.map Prod.fst) hshape
  refine ⟨?_, fun component hmem token htoken => ?_⟩
  · have := List.pairwise_map.mpr h.distinct
    rw [← hroots] at this
    exact List.pairwise_map.mp this
  · have hpair : (component.root, component.tokens) ∈ components.map fun c => (c.root, c.tokens) :=
      hshape ▸ List.mem_map_of_mem hmem
    obtain ⟨old, hold, heq⟩ := List.mem_map.mp hpair
    obtain ⟨hroot, htokens⟩ := Prod.mk.inj heq
    rw [← hroot]
    exact h.tokens old hold token (htokens ▸ htoken)

/-- The stages of `buildDiscoveryGraph`, each with what its loop keeps. -/
structure GraphStages (budget : Budget) (offers : List Crossable) (index : TokenIndex)
    (scan : ComponentScan) (seeded drained : KahnState) (marked : ComponentScan)
    (graph : DiscoveryGraph) : Prop where
  index_ran : Ran (offers.foldlM (indexOffer budget) ⟨.empty, []⟩) index
  indexed : IndexHolds offers [] index
  scan_ran : Ran (index.tokenAt.zipIdx.foldlM (scanToken budget) ⟨index.sets, []⟩) scan
  scanned : TokensScanned index.sets index.tokenAt [] scan
  seed_ran : Ran ((List.range index.tokenAt.length).foldlM (seedQueue budget)
    ⟨pendingInto (edgesOf index.tokenAt offers) [], [], []⟩) seeded
  seed_holds : KahnHolds (edgesOf index.tokenAt offers) [] seeded
  drain_ran : Ran (drainQueue budget (headsFrom (edgesOf index.tokenAt offers))
    index.tokenAt.length seeded) drained
  drain_holds : KahnHolds (edgesOf index.tokenAt offers) [] drained
  mark_ran : Ran ((List.range index.tokenAt.length).foldlM
    (markVertex budget drained.indegree) scan) marked
  mark_holds : Marked index.sets index.tokenAt scan.components drained.indegree [] marked
  tokenAt : graph.tokenAt = index.tokenAt
  sorted : List.Forall₂ (fun component sorted => sorted.root = component.root ∧
      sorted.cyclic = component.cyclic ∧ ∀ token, token ∈ sorted.tokens ↔ token ∈ component.tokens)
    (marked.components.insertionSort byKey) graph.components

theorem buildDiscoveryGraph_stages (budget : Budget) (offers : List Crossable) :
    Returns (buildDiscoveryGraph budget offers) fun graph => ∃ index scan seeded drained marked,
      GraphStages budget offers index scan seeded drained marked graph := by
  unfold buildDiscoveryGraph
  have hempty : IndexHolds offers offers ⟨.empty, []⟩ :=
    ⟨⟨fun v hv => absurd hv (Nat.not_lt_zero v), fun v hv => absurd hv (Nat.not_lt_zero v)⟩, rfl,
      List.nodup_nil, fun _ h => Or.inl h⟩
  refine Returns.bind ((Returns.ran _).and (Returns.foldlM
    (I := fun index rest => IndexHolds offers rest index) hempty
      fun _ _ _ h => indexOffer_returns budget h)) fun index hindex => ?_
  obtain ⟨hindexran, hindex⟩ := hindex
  refine Returns.bind ((Returns.ran _).and (Returns.foldlM
    (I := fun scan rest => TokensScanned index.sets index.tokenAt rest scan)
    (tokensScanned_init hindex.sound hindex.size)
    fun _ _ _ h => scanToken_returns budget hindex.sound hindex.size hindex.nodup h))
    fun scan hscan => ?_
  obtain ⟨hscanran, hscan⟩ := hscan
  refine Returns.bind (addEdge_returns budget index.tokenAt offers) fun degrees hdegrees => ?_
  obtain ⟨hindegree, houtgoing⟩ := hdegrees
  rw [houtgoing, show degrees.indegree = pendingInto (edgesOf index.tokenAt offers) [] from
    funext hindegree]
  refine Returns.bind ((Returns.ran _).and (seedQueue_returns budget index.tokenAt.length))
    fun seeded hseeded => ?_
  obtain ⟨hseedran, hdegree, hremoved, hnodup, hzero⟩ := hseeded
  have hkahn : KahnHolds (edgesOf index.tokenAt offers) [] seeded := by
    refine ⟨fun v => ?_, fun v hv => ?_, ?_, fun edge _ hmem => ?_⟩
    · rw [hdegree, hremoved]
      simp
    · rw [hremoved, List.nil_append] at hv
      rw [hdegree]
      exact hzero v hv
    · rwa [hremoved, List.nil_append]
    · rw [hremoved] at hmem
      exact absurd hmem List.not_mem_nil
  refine Returns.bind ((Returns.ran _).and (drainQueue_returns budget index.tokenAt.length hkahn))
    fun drained hdrained => ?_
  refine Returns.bind ((Returns.ran _).and (Returns.foldlM (I := fun marked rest =>
      Marked index.sets index.tokenAt scan.components drained.indegree rest marked)
    (hscan.marked_init drained.indegree) fun _ _ _ h => markVertex_returns budget hindex.sound hindex.size h)) fun marked hmarked => ?_
  refine Returns.bind (Returns.trivial _) fun _ _ => ?_
  refine Returns.bind (Returns.mapM fun component _ => sortTokens_returns budget component)
    fun components hcomponents => Returns.pure ⟨index, scan, seeded, drained, marked, ?_⟩
  exact ⟨hindexran, hindex, hscanran, hscan, hseedran, hkahn, hdrained.1, hdrained.2, hmarked.1, hmarked.2,
    rfl, hcomponents⟩

/-- Each returned component is a marked one, up to the order of its tokens, and conversely. -/
theorem GraphStages.components {budget : Budget} {offers : List Crossable} {index : TokenIndex}
    {scan : ComponentScan} {seeded drained : KahnState} {marked : ComponentScan}
    {graph : DiscoveryGraph}
    (h : GraphStages budget offers index scan seeded drained marked graph) :
    (∀ sorted ∈ graph.components, ∃ component ∈ marked.components,
      sorted.root = component.root ∧ sorted.cyclic = component.cyclic ∧
        ∀ token, token ∈ sorted.tokens ↔ token ∈ component.tokens) ∧
    ∀ component ∈ marked.components, ∃ sorted ∈ graph.components,
      sorted.root = component.root ∧ sorted.cyclic = component.cyclic ∧
        ∀ token, token ∈ sorted.tokens ↔ token ∈ component.tokens := by
  have hperm := List.perm_insertionSort byKey marked.components
  refine ⟨fun sorted hsorted => ?_, fun component hmem =>
    exists_of_forall2 h.sorted (hperm.mem_iff.mpr hmem)⟩
  obtain ⟨component, hmem, hrel⟩ := exists_of_forall2 h.sorted.flip hsorted
  exact ⟨component, hperm.mem_iff.mp hmem, hrel⟩

/-- The components of the graph hold the tokens of their roots. -/
theorem GraphStages.componentsHold {budget : Budget} {offers : List Crossable} {index : TokenIndex}
    {scan : ComponentScan} {seeded drained : KahnState} {marked : ComponentScan}
    {graph : DiscoveryGraph}
    (h : GraphStages budget offers index scan seeded drained marked graph) :
    ComponentsHold index.sets index.tokenAt graph.components := by
  have hholds := h.scanned.components.of_shape h.mark_holds.shape
  have hperm := List.perm_insertionSort byKey marked.components
  have hroots : graph.components.map (·.root) =
      (marked.components.insertionSort byKey).map (·.root) :=
    (forall2_map_eq (h.sorted.imp fun _ _ h => h.1.symm)).symm
  refine ⟨?_, fun sorted hsorted token htoken => ?_⟩
  · refine List.pairwise_map.mp ?_
    rw [hroots]
    exact ((hperm.map _).nodup_iff.mpr (List.pairwise_map.mpr hholds.distinct) :)
  · obtain ⟨component, hmem, hroot, -, htokens⟩ := h.components.1 sorted hsorted
    rw [hroot]
    exact hholds.tokens component hmem token ((htokens token).mp htoken)

/-- **`buildDiscoveryGraph`** returns a sound graph. -/
theorem buildDiscoveryGraph_returns (budget : Budget) (offers : List Crossable) :
    Returns (buildDiscoveryGraph budget offers) (GraphSound offers) := by
  refine (buildDiscoveryGraph_stages budget offers).mono ?_
  rintro ⟨_, components⟩ ⟨index, scan, seeded, drained, marked, hstages⟩
  obtain rfl : _ = index.tokenAt := hstages.tokenAt
  have hindex := hstages.indexed
  have hscan := hstages.scanned
  have hmarked := hstages.mark_holds
  have hdrained := hstages.drain_holds
  have hfinal : ComponentsHold index.sets index.tokenAt components := hstages.componentsHold
  have hholds := hscan.components.of_shape hmarked.shape
  have hunited := fun offer hoffer => (hindex.united offer hoffer).resolve_left List.not_mem_nil
  obtain ⟨hback, hforth⟩ := hstages.components
  have hcomponent : ∀ token ∈ index.tokenAt,
      ∃ component ∈ components, token ∈ component.tokens := by
    intro token htoken
    have hentry : (token, indexIn index.tokenAt token) ∈ index.tokenAt.zipIdx := by
      rw [List.mk_mem_zipIdx_iff_getElem?, List.getElem?_eq_getElem (indexIn_lt htoken)]
      exact congrArg some (List.getElem_idxOf _)
    obtain ⟨old, hold, hin⟩ := (hscan.covered _ hentry).resolve_left List.not_mem_nil
    have hpair : (old.root, old.tokens) ∈ marked.components.map fun c => (c.root, c.tokens) :=
      hmarked.shape ▸ List.mem_map_of_mem hold
    obtain ⟨component, hmem, heq⟩ := List.mem_map.mp hpair
    obtain ⟨sorted, hsorted, -, -, htokens⟩ := hforth component hmem
    exact ⟨sorted, hsorted, (htokens token).mpr ((Prod.mk.inj heq).2 ▸ hin)⟩
  have hof : ∀ component ∈ components, ∀ token ∈ component.tokens,
      DiscoveryGraph.componentOf ⟨index.tokenAt, components⟩ token = some component :=
    fun component hmem token htoken => componentOf_eq hfinal hmem htoken
  refine ⟨hindex.nodup, fun offer hoffer => ⟨(hunited offer hoffer).1, (hunited offer hoffer).2.1⟩,
    fun token htoken => ?_, fun offer hoffer => ?_, hfinal.distinct, ?_⟩
  · obtain ⟨component, hmem, hin⟩ := hcomponent token htoken
    exact ⟨component, hof component hmem token hin⟩
  · obtain ⟨hin, hout, r, hrootin, hrootout⟩ := hunited offer hoffer
    obtain ⟨c, hc, hcin⟩ := hcomponent _ hin
    obtain ⟨c', hc', hcout⟩ := hcomponent _ hout
    have hroot : c.root = c'.root := ((hfinal.tokens c hc _ hcin).2.unique hrootin).trans
      ((hfinal.tokens c' hc' _ hcout).2.unique hrootout).symm
    have hsymm : Std.Symm fun a b : DiscoveryComponent => a.root ≠ b.root :=
      ⟨fun _ _ hab => Ne.symm hab⟩
    have heq : c = c' := by
      by_contra hne
      exact hfinal.distinct.forall hc hc' hne hroot
    rw [hof c hc _ hcin, hof c' hc' _ hcout, heq]
  · refine ⟨fun token => drained.removed.idxOf (indexIn index.tokenAt token), ?_⟩
    intro offer hoffer component hcomp hcyclic
    obtain ⟨hmem, htoken⟩ := componentOf_mem hcomp
    obtain ⟨old, hold, hroot, hcyc, htokens⟩ := hback component hmem
    have hout := (hunited offer hoffer).2.1
    have hzero : drained.indegree (indexIn index.tokenAt offer.tokenOut) = 0 := by
      refine (hmarked.acyclic old hold (hcyc ▸ hcyclic) _ (indexIn_lt hout)).resolve_left
        List.not_mem_nil ?_
      exact (hholds.tokens old hold _ ((htokens _).mp htoken)).2
    exact hdrained.idxOf_lt (List.mem_map_of_mem hoffer) hzero

/-! ## The universe -/

theorem exists_min_position {makers : List Crossable} (hne : makers ≠ []) (position : String → Nat) :
    ∃ first ∈ makers, ∀ other ∈ makers, position first.tokenIn ≤ position other.tokenIn := by
  induction makers with
  | nil => exact absurd rfl hne
  | cons offer makers ih =>
    by_cases hrest : makers = []
    · subst hrest
      exact ⟨offer, List.mem_cons_self, by simp⟩
    · obtain ⟨first, hfirst, hmin⟩ := ih hrest
      by_cases hle : position offer.tokenIn ≤ position first.tokenIn
      · refine ⟨offer, List.mem_cons_self, fun other hother => ?_⟩
        rcases List.mem_cons.mp hother with rfl | hmem
        · exact le_rfl
        · exact hle.trans (hmin other hmem)
      · refine ⟨first, List.mem_cons_of_mem _ hfirst, fun other hother => ?_⟩
        rcases List.mem_cons.mp hother with rfl | hmem
        · exact (not_le.mp hle).le
        · exact hmin other hmem

/-- A token some maker takes and none pays is a deficit. -/
theorem netSupply_neg {makers : List Crossable} (hvalid : ∀ offer ∈ makers, offer.Valid)
    {token : String} {taker : Crossable} (htaker : taker ∈ makers) (htoken : taker.tokenIn = token)
    (hnone : ∀ offer ∈ makers, offer.tokenOut ≠ token) : netSupply makers token < 0 := by
  have hle : ∀ offer ∈ makers, offer.net token ≤ 0 := fun offer hoffer => by
    have hpos := (hvalid offer hoffer).amountIn_pos
    unfold Crossable.net
    rw [Pi.sub_apply, Pi.single_eq_of_ne (hnone offer hoffer).symm, zero_sub]
    by_cases heq : token = offer.tokenIn
    · rw [heq, Pi.single_eq_same]
      omega
    · rw [Pi.single_eq_of_ne heq]
      omega
  have hneg : taker.net token < 0 := by
    have hpos := (hvalid taker htaker).amountIn_pos
    unfold Crossable.net
    rw [Pi.sub_apply, Pi.single_eq_of_ne (hnone taker htaker).symm, ← htoken, Pi.single_eq_same]
    omega
  clear htoken hvalid hnone
  induction makers with
  | nil => exact absurd htaker List.not_mem_nil
  | cons offer makers ih =>
    rw [netSupply_cons, Pi.add_apply]
    have hhead := hle offer List.mem_cons_self
    have hrest : netSupply makers token ≤ 0 := by
      clear ih htaker
      induction makers with
      | nil => simp
      | cons next makers ih =>
        rw [netSupply_cons, Pi.add_apply]
        have h1 := hle next (by simp)
        have h2 := ih fun o ho => hle o (by
          rcases List.mem_cons.mp ho with rfl | ho
          · exact List.mem_cons_self
          · exact List.mem_cons_of_mem _ (List.mem_cons_of_mem _ ho))
        omega
    rcases List.mem_cons.mp htaker with rfl | hmem
    · omega
    · have := ih hmem fun o ho => hle o (List.mem_cons_of_mem _ ho)
      omega

/-- **The universe contains every feasible set.** If `tokenIn` is the only deficit of makers of
the book, each of them lies in a cyclic component or in that of `tokenIn`. -/
theorem mem_universeOffers {retained : List Crossable} {graph : DiscoveryGraph}
    (hgraph : GraphSound retained graph) {tokenIn : String} {component : DiscoveryComponent}
    (hcomponent : graph.componentOf tokenIn = some component) {makers : List Crossable}
    (hsub : ∀ offer ∈ makers, offer ∈ retained) (hvalid : ∀ offer ∈ makers, offer.Valid)
    (honly : ∀ token, netSupply makers token < 0 → token = tokenIn) :
    ∀ offer ∈ makers, offer ∈ universeOffers graph retained component := by
  intro offer hoffer
  have hretained := hsub offer hoffer
  obtain ⟨own, hown⟩ := hgraph.component _ (hgraph.indexed offer hretained).1
  have hincluded : own ∈ includedComponents graph component := by
    have hownmem := (componentOf_mem hown).1
    have hcyclics : own.cyclic = true → own ∈ graph.components.filter (·.cyclic) := fun h =>
      List.mem_filter.mpr ⟨hownmem, h⟩
    by_cases hcyclic : own.cyclic = true
    · unfold includedComponents
      simp only
      split
      · exact hcyclics hcyclic
      · exact List.mem_cons_of_mem _ (hcyclics hcyclic)
    · -- an acyclic component: its earliest input token is not paid by the set
      have heq : own = component := by
        obtain ⟨position, hposition⟩ := hgraph.acyclic
        have hhere : offer ∈ makers.filter fun o => graph.componentOf o.tokenIn = some own :=
          List.mem_filter.mpr ⟨hoffer, by simpa using hown⟩
        obtain ⟨first, hfirst, hmin⟩ := exists_min_position (List.ne_nil_of_mem hhere) position
        obtain ⟨hfirst, hfirstown⟩ := List.mem_filter.mp hfirst
        have hfirstown : graph.componentOf first.tokenIn = some own := by simpa using hfirstown
        have hnone : ∀ other ∈ makers, other.tokenOut ≠ first.tokenIn := by
          intro other hother hpaid
          have hout : graph.componentOf other.tokenOut = some own := hpaid ▸ hfirstown
          have hin : graph.componentOf other.tokenIn = some own :=
            (hgraph.united other (hsub other hother)).trans hout
          have hlt := hposition other (hsub other hother) own hout (by simpa using hcyclic)
          have hle := hmin other (List.mem_filter.mpr ⟨hother, by simpa using hin⟩)
          rw [hpaid] at hlt
          omega
        have htoken := honly _ (netSupply_neg hvalid hfirst rfl hnone)
        rw [htoken, hcomponent] at hfirstown
        exact (Option.some.inj hfirstown).symm
      have hnot : ¬ component.cyclic = true := heq ▸ hcyclic
      unfold includedComponents
      rw [if_neg hnot]
      exact heq ▸ List.mem_cons_self
  unfold universeOffers
  refine List.mem_filter.mpr ⟨hretained, ?_⟩
  rw [hown, Option.any_some]
  exact List.contains_iff_mem.mpr (List.mem_map_of_mem hincluded)

end ZswapKernel
