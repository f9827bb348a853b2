import ZswapKernel.Lib.BestByKey
import ZswapKernel.SolverCore.MergeOrder
import ZswapKernel.SolverCore.Crossable

/-!
# The offer book

`packages/solver/src/book.ts`: the live offers by content hash, in insertion order. `upsert` stores
an offer under its lower-case hash, so a `Book` carries that its keys are canonical and distinct.

The indices by nullifier and by pair are left out: nothing here reads them.
-/

namespace ZswapKernel

structure BookOffer extends LadderSourceOffer where
  firstSeenAt : Option Int := none
  blob : Option String := none
  deriving DecidableEq, Repr

/-- The copy of an offer `upsert` stores. -/
def BookOffer.stored (offer : BookOffer) : BookOffer :=
  { offer with
    offerHash := toLowerCase offer.offerHash
    inputNullifiers := (offer.inputNullifiers.map toLowerCase).eraseDups }

/-- `#byHash`, in insertion order. -/
structure Book where
  offers : List BookOffer
  lower : ∀ offer ∈ offers, toLowerCase offer.offerHash = offer.offerHash
  distinct : offers.Pairwise (·.offerHash ≠ ·.offerHash)

namespace Book

def empty : Book where
  offers := []
  lower := fun _ h => absurd h List.not_mem_nil
  distinct := List.Pairwise.nil

def size (book : Book) : Nat := book.offers.length

def get (book : Book) (offerHash : String) : Option BookOffer :=
  book.offers.find? (·.offerHash = toLowerCase offerHash)

def all (book : Book) : List BookOffer := book.offers

/-- Insert or replace. -/
def upsert (book : Book) (offer : BookOffer) : Book where
  offers := BestByKey.replace (·.offerHash) offer.stored book.offers
  lower := fun entry hentry => by
    rcases (BestByKey.mem_replace book.distinct).mp hentry with rfl | ⟨hmem, -⟩
    · exact toLowerCase_toLowerCase offer.offerHash
    · exact book.lower entry hmem
  distinct := BestByKey.pairwise_replace book.distinct offer.stored

def remove (book : Book) (offerHash : String) : Book where
  offers := book.offers.filter (·.offerHash ≠ toLowerCase offerHash)
  lower := fun entry hentry => book.lower entry (List.mem_of_mem_filter hentry)
  distinct := book.distinct.filter _

/-- An offer is found under its own hash. -/
theorem get_of_mem {book : Book} {offer : BookOffer} (h : offer ∈ book.offers) :
    book.get offer.offerHash = some offer := by
  unfold get
  cases hfind : book.offers.find? (·.offerHash = toLowerCase offer.offerHash) with
  | none =>
    have := List.find?_eq_none.mp hfind offer h
    exact absurd (book.lower offer h).symm (by simpa using this)
  | some found =>
    have hmem := List.mem_of_find?_eq_some hfind
    have hhash : found.offerHash = offer.offerHash := by
      rw [← book.lower offer h]
      simpa using List.find?_some hfind
    by_contra hne
    have : Std.Symm fun left right : BookOffer => left.offerHash ≠ right.offerHash :=
      ⟨fun _ _ h => Ne.symm h⟩
    exact book.distinct.forall hmem h (fun heq => hne (by rw [heq])) hhash

/-- What is found under a hash is an offer of the book with that hash. -/
theorem mem_of_get {book : Book} {offerHash : String} {offer : BookOffer}
    (h : book.get offerHash = some offer) :
    offer ∈ book.offers ∧ offer.offerHash = toLowerCase offerHash :=
  ⟨List.mem_of_find?_eq_some h, by simpa using List.find?_some h⟩

end Book

/-! ### Accounting sources -/

def LadderSourceLeg.toBalanceLeg (leg : LadderSourceLeg) : WholeOfferBalanceLeg :=
  ⟨leg.token, leg.amount⟩

/-- A book offer as a source of `accountWholeOfferBalances` and of the merge planner. -/
def BookOffer.mergeSource (offer : BookOffer) : WholeOfferMergeSource where
  offerHash := offer.offerHash
  gives := offer.gives.map LadderSourceLeg.toBalanceLeg
  wants := offer.wants.map LadderSourceLeg.toBalanceLeg

end ZswapKernel
