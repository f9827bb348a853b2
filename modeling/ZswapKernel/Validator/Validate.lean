import Mathlib.Data.List.Sort
import ZswapKernel.Validator.Derive

/-!
# Validation of an offer

`validateZswapOfferBytes`, `verifyOfferCrypto` and the ordered liveness descriptors of
`packages/validator`. The state machine defers the crypto and performs its own liveness checks, so the
optional synchronous checks of the source are left out.

The ledger and the MIP codecs are parameters (`Ledger`).
-/

namespace ZswapKernel

inductive OfferRejectCode
  | tooLarge
  | badDeserialize
  | noSpendableInput
  | notASwap
  | crossLayer
  | unknownToken
  | proofInvalid
  | signatureInvalid
  | intentTtlExpired
  | intentTtlTooFar
  | nullifierSpent
  | utxoNotLive
  | rootUnknown
  | rootUnreadable
  deriving DecidableEq, Repr

def OfferRejectCode.text : OfferRejectCode → String
  | .tooLarge => "TOO_LARGE"
  | .badDeserialize => "BAD_DESERIALIZE"
  | .noSpendableInput => "NO_SPENDABLE_INPUT"
  | .notASwap => "NOT_A_SWAP"
  | .crossLayer => "CROSS_LAYER"
  | .unknownToken => "UNKNOWN_TOKEN"
  | .proofInvalid => "PROOF_INVALID"
  | .signatureInvalid => "SIGNATURE_INVALID"
  | .intentTtlExpired => "INTENT_TTL_EXPIRED"
  | .intentTtlTooFar => "INTENT_TTL_TOO_FAR"
  | .nullifierSpent => "NULLIFIER_SPENT"
  | .utxoNotLive => "UTXO_NOT_LIVE"
  | .rootUnknown => "ROOT_UNKNOWN"
  | .rootUnreadable => "ROOT_UNREADABLE"

inductive ValueLayer
  | shielded
  | unshielded
  deriving DecidableEq, Repr

def ValueLayer.text : ValueLayer → String
  | .shielded => "SHIELDED"
  | .unshielded => "UNSHIELDED"

structure OfferLeg where
  token : String
  amount : String
  kind : ValueLayer
  deriving DecidableEq, Repr

inductive LegError
  | unknownTokenTag (message : String)
  | other (message : String)

/-- The ledger, the MIP-0005 and MIP-0006 codecs and the hash, which are not part of the
repository. -/
structure Ledger where
  deserialize : List UInt8 → Except String OfferTransaction
  addressFromKey : String → String
  deriveTokenLegs : OfferTransaction → Except LegError (List OfferLeg × List OfferLeg)
  isTwoSided : List OfferLeg → List OfferLeg → Bool
  /-- `tx.wellFormed` against the network's reference state. -/
  wellFormed : OfferTransaction → Int → Except String Unit
  /-- The earliest `ttl` of the intents. -/
  earliestIntentTtl : OfferTransaction → Option Int
  encode : List UInt8 → String
  sha256 : List UInt8 → String
  /-- `MidnightBech32m.parse(value).data`. -/
  parseAddress : String → Option (List UInt8)

/-- `OfferValidation` with `ok` true. -/
structure OfferValidation where
  tx : OfferTransaction
  nullifiers : List String
  unshieldedSpends : List UnshieldedSpendRef
  gives : List OfferLeg
  wants : List OfferLeg
  inputRoots : List String

structure OfferRejection where
  code : OfferRejectCode
  reason : String
  deriving DecidableEq, Repr

/-- `isCrossLayer`. -/
def isCrossLayer (gives wants : List OfferLeg) : Bool :=
  (((gives ++ wants).map (·.kind)).eraseDups).length > 1

def layerSummary (gives wants : List OfferLeg) : String :=
  let side := fun legs : List OfferLeg =>
    if legs = [] then "none"
    else String.intercalate "+"
      (((legs.map (·.kind)).eraseDups.map ValueLayer.text).insertionSort (· ≤ ·))
  "gives " ++ side gives ++ ", wants " ++ side wants

/-- `validateZswapOfferBytes` with `crypto: "defer"`. -/
def validateZswapOfferBytes (ledger : Ledger) (maxBytes : Nat) (rawTx : List UInt8) :
    Except OfferRejection OfferValidation :=
  if rawTx.length > maxBytes then
    .error ⟨.tooLarge, s!"offer is {rawTx.length} bytes > max {maxBytes}"⟩
  else
    match ledger.deserialize rawTx with
    | .error e => .error ⟨.badDeserialize, s!"deserialize failed: {e}"⟩
    | .ok tx =>
      let nullifiers := collectNullifiers tx
      let unshieldedSpends := collectUnshieldedSpends ledger.addressFromKey tx
      if nullifiers = [] ∧ unshieldedSpends = [] then
        .error ⟨.noSpendableInput, "no shielded input/transient or unshielded spend"⟩
      else
        match ledger.deriveTokenLegs tx with
        | .error (.unknownTokenTag e) => .error ⟨.unknownToken, e⟩
        | .error (.other e) => .error ⟨.badDeserialize, s!"imbalance derivation failed: {e}"⟩
        | .ok (gives, wants) =>
          if !ledger.isTwoSided gives wants then
            .error ⟨.notASwap, s!"expected ≥1 give and ≥1 want; got {gives.length} give(s), " ++
              s!"{wants.length} want(s)"⟩
          else if isCrossLayer gives wants then
            .error ⟨.crossLayer, s!"offer legs span both value layers ({layerSummary gives wants}); "
              ++ "no settlement path exists between shielded and unshielded"⟩
          else
            match extractOfferInputRoots tx with
            | .error e => .error ⟨.rootUnreadable, s!"root extraction failed: {e}"⟩
            | .ok inputRoots => .ok ⟨tx, nullifiers, unshieldedSpends, gives, wants, inputRoots⟩

/-- The text contains `needle`, in any case. -/
def containsIgnoringCase (text needle : String) : Bool :=
  (indexOf (toLowerCase needle).toList (toLowerCase text).toList).isSome

/-- `wellFormedFailureCode`. -/
def wellFormedFailureCode (message : String) : OfferRejectCode :=
  if containsIgnoringCase message "Intent TTL has expired" then .intentTtlExpired
  else if containsIgnoringCase message "Intent TTL is too far in the future" then .intentTtlTooFar
  else if containsIgnoringCase message "signature" then .signatureInvalid
  else .proofInvalid

/-- `verifyOfferCrypto`. -/
def verifyOfferCrypto (ledger : Ledger) (tx : OfferTransaction) (tblock : Int) :
    Except OfferRejection Unit :=
  match ledger.wellFormed tx tblock with
  | .ok () => .ok ()
  | .error message => .error ⟨wellFormedFailureCode message, s!"wellFormed failed: {message}"⟩

/-! ## Liveness descriptors -/

/-- A chain-state fact an offer needs. -/
inductive OfferLivenessDescriptor
  | nullifier (nullifier : String)
  | unshielded (ref : UnshieldedSpendRef)
  | root (root : String)
  deriving DecidableEq, Repr

/-- `orderedOfferLivenessDescriptors`: nullifiers, unshielded coins, roots. -/
def orderedOfferLivenessDescriptors (validation : OfferValidation) : List OfferLivenessDescriptor :=
  validation.nullifiers.map .nullifier ++ validation.unshieldedSpends.map .unshielded ++
    validation.inputRoots.map .root

/-- `offerLivenessFailure` in its `not-live` mode. -/
def offerLivenessFailure : OfferLivenessDescriptor → OfferRejection
  | .nullifier nullifier => ⟨.nullifierSpent, s!"nullifier already spent: {nullifier}"⟩
  | .root root => ⟨.rootUnknown, s!"input merkle root not a known recent chain root: {root}"⟩
  | .unshielded ref => ⟨.utxoNotLive, "unshielded UTXO not live (spent or never created): " ++
      s!"{ref.owner}/{ref.intentHash}/{decimal ref.outputNo}"⟩

/-- `evaluateOfferLiveness`: the first descriptor that is not live. -/
def evaluateOfferLiveness (validation : OfferValidation) (live : OfferLivenessDescriptor → Bool) :
    Except OfferRejection Unit :=
  match (orderedOfferLivenessDescriptors validation).find? fun descriptor => !live descriptor with
  | none => .ok ()
  | some descriptor => .error (offerLivenessFailure descriptor)

/-- An offer passes when every fact holds. -/
theorem evaluateOfferLiveness_ok {validation : OfferValidation}
    {live : OfferLivenessDescriptor → Bool} (h : evaluateOfferLiveness validation live = .ok ()) :
    (∀ nullifier ∈ validation.nullifiers, live (.nullifier nullifier) = true) ∧
    (∀ ref ∈ validation.unshieldedSpends, live (.unshielded ref) = true) ∧
    (∀ root ∈ validation.inputRoots, live (.root root) = true) := by
  unfold evaluateOfferLiveness at h
  split at h
  · rename_i hfind
    have hall := List.find?_eq_none.mp hfind
    simp only [Bool.not_eq_true', Bool.not_eq_false] at hall
    unfold orderedOfferLivenessDescriptors at hall
    refine ⟨fun n hn => hall _ ?_, fun ref href => hall _ ?_, fun root hroot => hall _ ?_⟩
    · exact List.mem_append_left _ (List.mem_append_left _ (List.mem_map_of_mem hn))
    · exact List.mem_append_left _ (List.mem_append_right _ (List.mem_map_of_mem href))
    · exact List.mem_append_right _ (List.mem_map_of_mem hroot)
  · cases h

end ZswapKernel
