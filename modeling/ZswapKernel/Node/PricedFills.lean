import Mathlib.Algebra.Ring.Rat
import Mathlib.Data.List.Perm.Basic
import ZswapKernel.Node.ArchiveMove
import ZswapKernel.Node.FillVerdict

/-!
# Priced fills, stored and computed

`pricedFillsSql` of `packages/database/sql/queries.app.ts` reads the verdict that
`adjudicateOfferFill` stored, and computes it where none is stored. The two are separate texts over
the same child rows. An archived offer yields at most the row of one colour on each side, in one
orientation, and the verdict caches that row.

An offer without legs on one side has no row to update from: it keeps a NULL verdict, and yields
nothing either way. An update that finds several rows takes any one of them; the query gives its rows
in any order.

* `computedFill_eq` — the computed branch, by the rows the update takes from.
* `pricedFills_adjudicated` — the fills before and after an offer is adjudicated.
-/

namespace ZswapKernel

/-! ## Legs -/

section Legs

-- `amount::numeric`, of the amounts in the archive
variable (numeric : String → Rat)

/-- The legs of one direction of an archived offer. -/
def archivedLegs (db : Db) (offerId : Nat) (direction : LegDirection) : List TokenLeg :=
  (db.tokensHistory.filter fun row =>
    row.offerFileId = offerId && row.value.direction = direction).map (·.value)

/-- `GROUP BY token_color`: the colours of some legs. -/
def legColours (legs : List TokenLeg) : List String := (legs.map (·.token)).dedup

/-- `SUM(amount::numeric)`, grouped by colour. -/
def legSums (db : Db) (offerId : Nat) (direction : LegDirection) : List (String × Rat) :=
  let legs := archivedLegs db offerId direction
  (legColours legs).map fun colour =>
    (colour, ((legs.filter (·.token = colour)).map (numeric ·.amount)).sum)

/-- `notABasketPredicate`: no direction has two colours. -/
def notABasket (db : Db) (offerId : Nat) : Bool :=
  [LegDirection.giving, .wanting].all fun direction =>
    (legColours (archivedLegs db offerId direction)).length ≤ 1

/-- The colours and amounts of a price, in the order of the colours. -/
structure PriceColumns where
  baseColor : String
  quoteColor : String
  baseAmount : Rat
  quoteAmount : Rat
  deriving DecidableEq, Repr

/-! ## The stored verdict -/

/-- The columns of a pair of legs, in `adjudicateOfferFill`. -/
def legColumns (given wanted : String × Rat) : PriceColumns where
  baseColor := min given.1 wanted.1
  quoteColor := max given.1 wanted.1
  baseAmount := if given.1 = min given.1 wanted.1 then given.2 else wanted.2
  quoteAmount := if given.1 = min given.1 wanted.1 then wanted.2 else given.2

/-- The rows the update takes from: the columns are NULL unless the pair is a price. -/
def adjudicatedLegs (db : Db) (offerId : Nat) : List (Option PriceColumns) :=
  (legSums numeric db offerId .giving).flatMap fun given =>
    (legSums numeric db offerId .wanting).map fun wanted =>
      if 0 < given.2 ∧ 0 < wanted.2 ∧ notABasket db offerId = true ∧ db.cancelled offerId = false then
        some (legColumns given wanted)
      else none

/-- What the update does to one row of the history. -/
def OfferFileHistoryRow.settle (settled : Bool) (columns : Option PriceColumns)
    (row : OfferFileHistoryRow) : OfferFileHistoryRow :=
  { row with
    settled := some settled
    baseColor := columns.map (·.baseColor)
    quoteColor := columns.map (·.quoteColor)
    baseAmount := columns.map (·.baseAmount)
    quoteAmount := columns.map (·.quoteAmount) }

/-- `adjudicateOfferFill`. `choose` is the row of `leg` that the update takes. -/
def storeOfferFill (choose : List (Option PriceColumns) → Option (Option PriceColumns)) (db : Db)
    (offerId : Nat) (history : List OfferFileHistoryRow) : List OfferFileHistoryRow :=
  match choose (adjudicatedLegs numeric db offerId) with
  | none => history
  | some columns => history.map fun row =>
    if row.id = offerId ∧ row.archiveReason = .consumed then
      row.settle (db.adjudicateOfferFill offerId) columns
    else row

/-! ## The query -/

/-- A row of `pricedFillsSql`. -/
structure PricedFill where
  id : Nat
  offerHash : String
  archivedAt : Int
  baseColor : String
  quoteColor : Option String
  baseAmount : Option Rat
  quoteAmount : Option Rat
  deriving DecidableEq, Repr

/-- The branch of the stored verdicts. -/
def storedFill (row : OfferFileHistoryRow) : List PricedFill :=
  match row.settled, row.baseColor with
  | some true, some baseColor =>
    [⟨row.id, row.offerHash, row.archivedAt, baseColor, row.quoteColor, row.baseAmount,
      row.quoteAmount⟩]
  | _, _ => []

/-- The branch of the offers without a verdict. -/
def computedFill (db : Db) (row : OfferFileHistoryRow) : List PricedFill :=
  if row.settled = none ∧ row.archiveReason = .consumed then
    (legSums numeric db row.id .giving).flatMap fun given =>
      ((legSums numeric db row.id .wanting).filter fun wanted => 0 < given.2 ∧ 0 < wanted.2 ∧
          notABasket db row.id = true ∧ db.cancelled row.id = false).map fun wanted =>
        { id := row.id
          offerHash := row.offerHash
          archivedAt := row.archivedAt
          baseColor := min given.1 wanted.1
          quoteColor := some (max given.1 wanted.1)
          baseAmount := some (if given.1 = min given.1 wanted.1 then given.2 else wanted.2)
          quoteAmount := some (if given.1 = min given.1 wanted.1 then wanted.2 else given.2) }
  else []

/-- `pricedFillsSql`, over the history with its verdicts. -/
def pricedFillsSql (db : Db) (history : List OfferFileHistoryRow) : List PricedFill :=
  history.flatMap storedFill ++ history.flatMap (computedFill numeric db)

end Legs

/-! ## The fills of one offer -/

section Fills

variable {numeric : String → Rat} {db : Db} {offerId : Nat} {row : OfferFileHistoryRow}

theorem length_legSums (h : notABasket db offerId = true) (direction : LegDirection) :
    (legSums numeric db offerId direction).length ≤ 1 := by
  unfold legSums
  rw [List.length_map]
  unfold notABasket at h
  rw [List.all_eq_true] at h
  exact of_decide_eq_true (h direction (by cases direction <;> simp))

/-- The row of a price. -/
def PriceColumns.fill (row : OfferFileHistoryRow) (columns : PriceColumns) : PricedFill where
  id := row.id
  offerHash := row.offerHash
  archivedAt := row.archivedAt
  baseColor := columns.baseColor
  quoteColor := some columns.quoteColor
  baseAmount := some columns.baseAmount
  quoteAmount := some columns.quoteAmount

/-- **The computed branch, by the rows the update takes from**: any one of them says what the query
yields. -/
theorem computedFill_eq (hnull : row.settled = none) (hconsumed : row.archiveReason = .consumed)
    {columns : Option PriceColumns} (h : columns ∈ adjudicatedLegs numeric db row.id) :
    computedFill numeric db row = columns.toList.map (·.fill row) := by
  unfold adjudicatedLegs at h
  obtain ⟨given, hgiven, h⟩ := List.mem_flatMap.mp h
  obtain ⟨wanted, hwanted, rfl⟩ := List.mem_map.mp h
  unfold computedFill
  rw [if_pos ⟨hnull, hconsumed⟩]
  cases hbasket : notABasket db row.id with
  | false =>
    -- no pair of legs of a basket is a price
    simp
  | true =>
    have hone : ∀ direction, ∀ leg ∈ legSums numeric db row.id direction,
        legSums numeric db row.id direction = [leg] := by
      intro direction leg hleg
      have hlength : (legSums numeric db row.id direction).length ≤ 1 :=
        length_legSums hbasket direction
      have hpos := List.length_pos_of_mem hleg
      obtain ⟨other, hother⟩ := List.length_eq_one_iff.mp (Nat.le_antisymm hlength hpos)
      rw [hother] at hleg ⊢
      rw [List.mem_singleton.mp hleg]
    rw [hone _ given hgiven, hone _ wanted hwanted, List.flatMap_singleton]
    by_cases hprice : 0 < given.2 ∧ 0 < wanted.2 ∧ true = true ∧ db.cancelled row.id = false
    · rw [if_pos hprice, List.filter_singleton, decide_eq_true hprice]
      rfl
    · rw [if_neg hprice, List.filter_singleton, decide_eq_false hprice]
      rfl

/-- A price says that the offer was filled. -/
theorem settled_of_price {columns : PriceColumns}
    (h : some columns ∈ adjudicatedLegs numeric db offerId) :
    db.adjudicateOfferFill offerId = true := by
  unfold adjudicatedLegs at h
  obtain ⟨given, -, h⟩ := List.mem_flatMap.mp h
  obtain ⟨wanted, -, h⟩ := List.mem_map.mp h
  split at h
  · rename_i hprice
    unfold Db.adjudicateOfferFill
    rw [hprice.2.2.2]
    rfl
  · cases h

/-- What an offer yields once it is adjudicated. -/
theorem storedFill_settle {columns : Option PriceColumns}
    (h : columns ∈ adjudicatedLegs numeric db offerId) :
    storedFill (row.settle (db.adjudicateOfferFill offerId) columns) =
      columns.toList.map (·.fill row) := by
  unfold storedFill OfferFileHistoryRow.settle
  cases columns with
  | none => cases db.adjudicateOfferFill offerId <;> rfl
  | some columns =>
    rw [settled_of_price h]
    rfl

/-- An offer without a verdict yields nothing from the stored ones. -/
theorem storedFill_null (h : row.settled = none) : storedFill row = [] := by
  unfold storedFill
  rw [h]

theorem computedFill_settle (settled : Bool) (columns : Option PriceColumns) :
    computedFill numeric db (row.settle settled columns) = [] := by
  unfold computedFill OfferFileHistoryRow.settle
  simp

end Fills

/-! ## Before and after -/

/-- An update takes one of the rows it finds, if there is one. -/
structure Chooses (choose : List (Option PriceColumns) → Option (Option PriceColumns)) : Prop where
  mem : ∀ legs columns, choose legs = some columns → columns ∈ legs
  total : ∀ legs, choose legs = none → legs = []

/-- **The fills before and after an offer is adjudicated** are the same, for any child rows and any
state of the chain tables. -/
theorem pricedFills_adjudicated (numeric : String → Rat)
    (choose : List (Option PriceColumns) → Option (Option PriceColumns)) (hchoose : Chooses choose)
    (db : Db) (offerId : Nat) (history : List OfferFileHistoryRow)
    (hnull : ∀ row ∈ history, row.id = offerId → row.settled = none) :
    (pricedFillsSql numeric db (storeOfferFill numeric choose db offerId history)).Perm
        (pricedFillsSql numeric db history) ∧
      ((pricedFillsSql numeric db (storeOfferFill numeric choose db offerId history)).filter
        (·.id = offerId)).Perm ((pricedFillsSql numeric db history).filter (·.id = offerId)) := by
  suffices hperm : (pricedFillsSql numeric db
      (storeOfferFill numeric choose db offerId history)).Perm (pricedFillsSql numeric db history) from
    ⟨hperm, hperm.filter _⟩
  unfold storeOfferFill
  cases hlegs : choose (adjudicatedLegs numeric db offerId) with
  | none => exact List.Perm.refl _
  | some columns =>
    have hmem := hchoose.mem _ _ hlegs
    unfold pricedFillsSql
    refine (List.flatMap_append_perm _ _ _).trans (List.Perm.trans ?_
      (List.flatMap_append_perm _ _ _).symm)
    dsimp only
    rw [List.flatMap_map]
    refine List.Perm.of_eq (List.flatMap_congr fun row hrow => ?_)
    split
    · rename_i hmatched
      obtain ⟨rfl, hconsumed⟩ := hmatched
      have hsettled := hnull row hrow rfl
      rw [storedFill_settle hmem, computedFill_settle, storedFill_null hsettled,
        computedFill_eq hsettled hconsumed hmem, List.append_nil, List.nil_append]
    · rfl

namespace OneFill

/-- An offer of two colours for a third, and one of one colour for another with a leg on each layer. -/
def db : Db where
  tokensHistory := [leg 1 "a" "5" .giving .shielded, leg 1 "b" "5" .giving .shielded,
    leg 1 "c" "7" .wanting .shielded, leg 2 "b" "5" .giving .shielded,
    leg 2 "b" "5" .giving .unshielded, leg 2 "a" "20" .wanting .shielded]
where
  leg (id : Nat) (token amount : String) (direction : LegDirection) (kind : ValueLayer) :
      ArchivedRow TokenLeg := ⟨⟨id, ⟨⟨token, amount, kind⟩, direction⟩⟩, 9⟩

def history : List OfferFileHistoryRow :=
  [1, 2].map fun id => OfferFileRow.archived .consumed 9
    ⟨id, 7, "", "h", some 0, some 9, 0, none, 3600⟩

/-- `amount::numeric` of a whole number. -/
def numeric (amount : String) : Rat :=
  (amount.toList.foldl (fun n c => 10 * n + (c.toNat - '0'.toNat)) 0 : Nat)

theorem chooses : Chooses List.head? where
  mem _ _ h := List.mem_of_mem_head? h
  total _ h := List.head?_eq_none_iff.mp h

end OneFill

open OneFill in
/-- The basket yields nothing, and the other offer its price, before and after. -/
theorem pricedFills_adjudicated_layers :
    ((pricedFillsSql numeric db (storeOfferFill numeric List.head? db 2 history)).filter
      (·.id = 2)).Perm [⟨2, "h", 9, "a", some "b", some 20, some 10⟩] ∧
    (pricedFillsSql numeric db (storeOfferFill numeric List.head? db 1 history)).Perm
      [⟨2, "h", 9, "a", some "b", some 20, some 10⟩] := by
  have hbefore : pricedFillsSql numeric db history =
      [⟨2, "h", 9, "a", some "b", some 20, some 10⟩] := by
    decide +kernel
  have hnull : ∀ row ∈ history, row.settled = none := by decide
  obtain ⟨-, hsecond⟩ := pricedFills_adjudicated numeric List.head? chooses db 2 history
    fun row hrow _ => hnull row hrow
  obtain ⟨hfirst, -⟩ := pricedFills_adjudicated numeric List.head? chooses db 1 history
    fun row hrow _ => hnull row hrow
  rw [hbefore] at hfirst hsecond
  exact ⟨hsecond, hfirst⟩

end ZswapKernel
