import Mathlib.Logic.Function.Basic
import ZswapKernel.SolverCore.Crossable

/-!
# The discovery graph

`DisjointTokenSets` and `buildDiscoveryGraph` of `packages/solver-core/ladder-derivation.ts`:
tokens are vertices, a retained offer is an edge from the token it takes to the token it pays.
Weak components come from the disjoint sets, and Kahn's removal marks those that keep a vertex of
positive indegree.

Arrays indexed by token are total functions with the length kept in `tokenAt`; `indexByToken` is
the position in `tokenAt`.
-/

namespace ZswapKernel

/-! ## Disjoint token sets -/

structure DisjointTokenSets where
  size : Nat
  parent : Nat → Nat
  rank : Nat → Nat

namespace DisjointTokenSets

def empty : DisjointTokenSets := ⟨0, id, fun _ => 0⟩

/-- `add()`: a fresh singleton; its index is the old size. -/
def add (sets : DisjointTokenSets) : DisjointTokenSets :=
  ⟨sets.size + 1, Function.update sets.parent sets.size sets.size,
    Function.update sets.rank sets.size 0⟩

/-- `while (this.parent[root] !== root) root = this.parent[root]`. -/
def rootFrom (parent : Nat → Nat) : Nat → Nat → Nat
  | 0, value => value
  | fuel + 1, value => if parent value = value then value else rootFrom parent fuel (parent value)

/-- The compression loop: every vertex from `cursor` up is pointed at `root`. -/
def compress (root : Nat) : Nat → (Nat → Nat) → Nat → Nat → Nat
  | 0, parent, _ => parent
  | fuel + 1, parent, cursor =>
    if parent cursor = cursor then parent
    else compress root fuel (Function.update parent cursor root) (parent cursor)

/-- `find(value)`; a path visits each vertex at most once, so `size` bounds both loops. -/
def find (sets : DisjointTokenSets) (value : Nat) : Nat × DisjointTokenSets :=
  let root := rootFrom sets.parent sets.size value
  (root, { sets with parent := compress root sets.size sets.parent value })

/-- `union(left, right)`, by rank. -/
def union (sets : DisjointTokenSets) (left right : Nat) : DisjointTokenSets :=
  let (leftRoot, sets) := sets.find left
  let (rightRoot, sets) := sets.find right
  if leftRoot = rightRoot then sets
  else
    let (leftRoot, rightRoot) :=
      if sets.rank leftRoot < sets.rank rightRoot then (rightRoot, leftRoot)
      else (leftRoot, rightRoot)
    { sets with
      parent := Function.update sets.parent rightRoot leftRoot
      rank := if sets.rank leftRoot = sets.rank rightRoot then
        Function.update sets.rank leftRoot (sets.rank leftRoot + 1) else sets.rank }

end DisjointTokenSets

/-! ## The graph -/

structure DiscoveryComponent where
  root : Nat
  key : String
  tokens : List String
  cyclic : Bool
  deriving DecidableEq, Repr

structure DiscoveryGraph where
  tokenAt : List String
  components : List DiscoveryComponent
  deriving DecidableEq, Repr

/-- `indexByToken.get(token)`. -/
def indexIn (tokenAt : List String) (token : String) : Nat := tokenAt.idxOf token

def DiscoveryGraph.index (graph : DiscoveryGraph) (token : String) : Nat :=
  indexIn graph.tokenAt token

/-- `componentByToken.get(token)`. -/
def DiscoveryGraph.componentOf (graph : DiscoveryGraph) (token : String) :
    Option DiscoveryComponent :=
  graph.components.find? fun component => component.tokens.contains token

/-- `sets`, `tokenAt` and `indexByToken` while the edges are read. -/
structure TokenIndex where
  sets : DisjointTokenSets
  tokenAt : List String

/-- `indexFor(token)`: a new token is charged and added to the sets. -/
def indexFor (budget : Budget) (index : TokenIndex) (token : String) : Budgeted TokenIndex :=
  if token ∈ index.tokenAt then pure index
  else do
    budget.charge
    return ⟨index.sets.add, index.tokenAt ++ [token]⟩

/-- The first loop over the offers: index both tokens and unite them. -/
def indexOffer (budget : Budget) (index : TokenIndex) (offer : Crossable) :
    Budgeted TokenIndex := do
  let index ← indexFor budget index offer.tokenIn
  let index ← indexFor budget index offer.tokenOut
  budget.charge
  let input := indexIn index.tokenAt offer.tokenIn
  let output := indexIn index.tokenAt offer.tokenOut
  return { index with sets := index.sets.union input output }

/-- Add `token` to the component of `root`; the key is the least token. -/
def addToComponent (root : Nat) (token : String) :
    List DiscoveryComponent → List DiscoveryComponent
  | [] => [⟨root, token, [token], false⟩]
  | component :: components =>
    if component.root = root then
      { component with
        tokens := component.tokens ++ [token]
        key := if token < component.key then token else component.key } :: components
    else component :: addToComponent root token components

/-- The component map and the sets, whose `find` compresses paths. -/
structure ComponentScan where
  sets : DisjointTokenSets
  components : List DiscoveryComponent

def scanToken (budget : Budget) (scan : ComponentScan) (entry : String × Nat) :
    Budgeted ComponentScan := do
  budget.charge
  let (root, sets) := scan.sets.find entry.2
  return ⟨sets, addToComponent root entry.1 scan.components⟩

/-! ### Kahn's removal -/

/-- The indegrees and the out-edges, by token index. -/
structure Degrees where
  indegree : Nat → Nat
  outgoing : Nat → List Nat

def addEdge (budget : Budget) (tokenAt : List String) (degrees : Degrees) (offer : Crossable) :
    Budgeted Degrees := do
  budget.charge
  let input := indexIn tokenAt offer.tokenIn
  let output := indexIn tokenAt offer.tokenOut
  return ⟨Function.update degrees.indegree output (degrees.indegree output + 1),
    Function.update degrees.outgoing input (degrees.outgoing input ++ [output])⟩

/-- The queue after its cursor, the vertices already taken from it, and the indegrees left. -/
structure KahnState where
  indegree : Nat → Nat
  removed : List Nat
  queue : List Nat

/-- Queue the vertices of indegree zero. -/
def seedQueue (budget : Budget) (state : KahnState) (vertex : Nat) : Budgeted KahnState := do
  budget.charge
  return if state.indegree vertex = 0 then { state with queue := state.queue ++ [vertex] }
    else state

/-- Remove one out-edge of the vertex just taken. -/
def removeEdge (budget : Budget) (state : KahnState) (output : Nat) : Budgeted KahnState := do
  budget.charge
  let left := state.indegree output - 1
  let indegree := Function.update state.indegree output left
  return if left = 0 then { state with indegree, queue := state.queue ++ [output] }
    else { state with indegree }

/-- `while (cursor < queue.length)`; a vertex is queued at most once, so the number of vertices
bounds the loop. -/
def drainQueue (budget : Budget) (outgoing : Nat → List Nat) :
    Nat → KahnState → Budgeted KahnState
  | 0, state => pure state
  | fuel + 1, state =>
    match state.queue with
    | [] => pure state
    | vertex :: queue => do
      budget.charge
      let state ← (outgoing vertex).foldlM (removeEdge budget)
        { state with removed := state.removed ++ [vertex], queue }
      drainQueue budget outgoing fuel state

/-- Mark the component of `root` cyclic. -/
def markCyclic (root : Nat) (components : List DiscoveryComponent) : List DiscoveryComponent :=
  components.map fun component =>
    if component.root = root then { component with cyclic := true } else component

/-- A vertex Kahn's removal left with a positive indegree marks its component. -/
def markVertex (budget : Budget) (indegree : Nat → Nat) (scan : ComponentScan) (vertex : Nat) :
    Budgeted ComponentScan := do
  budget.charge
  if 0 < indegree vertex then
    let (root, sets) := scan.sets.find vertex
    return ⟨sets, markCyclic root scan.components⟩
  else return scan

def byKey (left right : DiscoveryComponent) : Prop := left.key ≤ right.key

instance : DecidableRel byKey := fun left right =>
  inferInstanceAs (Decidable (left.key ≤ right.key))

def sortTokens (budget : Budget) (component : DiscoveryComponent) :
    Budgeted DiscoveryComponent := do
  budget.chargeSort component.tokens.length
  return { component with tokens := component.tokens.insertionSort (· ≤ ·) }

/-- `buildDiscoveryGraph`. -/
def buildDiscoveryGraph (budget : Budget) (offers : List Crossable) :
    Budgeted DiscoveryGraph := do
  let index ← offers.foldlM (indexOffer budget) ⟨.empty, []⟩
  let tokenAt := index.tokenAt
  let scan ← tokenAt.zipIdx.foldlM (scanToken budget) ⟨index.sets, []⟩
  let degrees ← offers.foldlM (addEdge budget tokenAt) ⟨fun _ => 0, fun _ => []⟩
  let seeded ← (List.range tokenAt.length).foldlM (seedQueue budget) ⟨degrees.indegree, [], []⟩
  let drained ← drainQueue budget degrees.outgoing tokenAt.length seeded
  let marked ← (List.range tokenAt.length).foldlM (markVertex budget drained.indegree) scan
  budget.chargeSort marked.components.length
  let components ← (marked.components.insertionSort byKey).mapM (sortTokens budget)
  return ⟨tokenAt, components⟩

end ZswapKernel
